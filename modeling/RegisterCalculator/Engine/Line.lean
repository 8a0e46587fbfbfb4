import RegisterCalculator.Command.Parser
import RegisterCalculator.Engine.Basic

namespace RegisterCalculator

inductive Outcome (α : Type) where
  | defined
  | printed (value : α)
  | skipped
  | quit
  deriving DecidableEq

/-- Why a line was not carried out: it is no command, or the command cannot be met. -/
inductive LineError where
  | malformed (cause : Malformed)
  | fault (cause : Fault)
  deriving DecidableEq

namespace Engine

variable {α : Type} [Accumulator α]

def perform (c : Command) (e : Engine α) : Except LineError (Outcome α) × Engine α :=
  match c with
  | .define register i => (.ok .defined, (e.push register i).2)
  | .print register =>
    let (printed, e) := e.print register
    match printed with
    | .ok value => (.ok (.printed value), e)
    | .error fault => (.error (.fault fault), e)
  | .quit => (.ok .quit, e)
  | .blank => (.ok .skipped, e)

def execute (line : String) (e : Engine α) : Except LineError (Outcome α) × Engine α :=
  match Command.parse line with
  | .ok c => e.perform c
  | .error cause => (.error (.malformed cause), e)

/-- The ways in which a line is carried out. Each has its answer and the engine that is left. -/
inductive Execution (line : String) (e : Engine α) : Prop where
  | malformed (cause : Malformed) (parsed : Command.parse line = .error cause)
    (outcome : e.execute line = (.error (.malformed cause), e))
  | defined (register : String) (i : Instruction)
    (parsed : Command.parse line = .ok (.define register i))
    (outcome : e.execute line = (.ok .defined, (e.push register i).2))
  | printed (register : String) (id : Nat) (parsed : Command.parse line = .ok (.print register))
    (found : e.store.find? register = some id)
    (outcome : e.execute line =
      (.ok (.printed (e.reset.evaluate id).1), (e.reset.evaluate id).2))
  | missing (register : String) (parsed : Command.parse line = .ok (.print register))
    (absent : e.store.find? register = none)
    (outcome : e.execute line = (.error (.fault (.registerNotFound register)), e))
  | quit (parsed : Command.parse line = .ok .quit) (outcome : e.execute line = (.ok .quit, e))
  | blank (parsed : Command.parse line = .ok .blank) (outcome : e.execute line = (.ok .skipped, e))

theorem execution (line : String) (e : Engine α) : Execution line e := by
  cases parsed : Command.parse line with
  | error cause => exact .malformed cause parsed (by simp only [execute, parsed])
  | ok c =>
    cases c with
    | define register i => exact .defined register i parsed (by simp only [execute, parsed, perform])
    | quit => exact .quit parsed (by simp only [execute, parsed, perform])
    | blank => exact .blank parsed (by simp only [execute, parsed, perform])
    | print register =>
      cases found : e.store.find? register with
      | none =>
        refine .missing register parsed found ?_
        simp only [execute, parsed, perform, print_of_find?_eq_none found]
      | some id =>
        refine .printed register id parsed found ?_
        simp only [execute, parsed, perform, print_of_find? found]

/-- A line fails because of its text, or because it prints a register that does not exist. What the
registers hold is never the reason. -/
theorem error_of_execute {line : String} {e : Engine α} {error : LineError}
    (fails : (e.execute line).1 = .error error) :
    (∃ cause, Command.parse line = .error cause ∧ error = .malformed cause) ∨
    ∃ name, Command.parse line = .ok (.print name) ∧ e.store.find? name = none ∧
      error = .fault (.registerNotFound name) := by
  cases e.execution line with
  | malformed cause parsed outcome =>
    simp only [outcome, Except.error.injEq] at fails
    exact .inl ⟨cause, parsed, fails.symm⟩
  | missing register parsed absent outcome =>
    simp only [outcome, Except.error.injEq] at fails
    exact .inr ⟨register, parsed, absent, fails.symm⟩
  | defined _ _ _ outcome => simp [outcome] at fails
  | printed _ _ _ _ outcome => simp [outcome] at fails
  | quit _ outcome => simp [outcome] at fails
  | blank _ outcome => simp [outcome] at fails

def executeAll : List String → Engine α → List (Except LineError (Outcome α) × Engine α)
  | [], _ => []
  | line :: rest, e =>
    let (answer, e) := e.execute line
    (answer, e) :: executeAll rest e

/-- The engine that lines leave behind. -/
def follow (lines : List String) (e : Engine α) : Engine α :=
  lines.foldl (fun e line => (e.execute line).2) e

theorem follow_cons (line : String) (lines : List String) (e : Engine α) :
    e.follow (line :: lines) = (e.execute line).2.follow lines := by
  simp only [follow, List.foldl_cons]

end Engine

end RegisterCalculator
