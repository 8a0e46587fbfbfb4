import RegisterCalculator.FileSystem
import RegisterCalculator.Session

namespace RegisterCalculator

/-- What the arguments ask for. Without an input the lines come from standard input. -/
inductive Invocation where
  | help
  | run (input : Option String)
  deriving DecidableEq

inductive ArgumentError where
  | unexpected (argument : String)
  deriving DecidableEq

def ArgumentError.message : ArgumentError → String
  | unexpected argument => "Unexpected argument: " ++ argument

namespace Invocation

/-- Reads arguments from the left, with the input that earlier ones have named. The first that asks
for help or is out of place decides. -/
def ofArgsAfter (input : Option String) : List String → Except ArgumentError Invocation
  | [] => .ok (run input)
  | argument :: rest =>
    if argument = "-h" ∨ argument = "--help" then .ok help
    else if argument.toList.head? = some '-' then .error (.unexpected argument)
    else
      match input with
      | none => ofArgsAfter (some argument) rest
      | some _ => .error (.unexpected argument)

def ofArgs (args : List String) : Except ArgumentError Invocation := ofArgsAfter none args

end Invocation

namespace CommandLine

def usage : String :=
  "Register calculator\n" ++
  "\n" ++
  "USAGE:\n" ++
  "    regcalc [FILE]\n" ++
  "\n" ++
  "Reads commands from FILE, or from standard input until `quit`.\n" ++
  "\n" ++
  "COMMANDS:\n" ++
  "    <register> <add|subtract|multiply> <value>\n" ++
  "    print <register>\n" ++
  "    quit\n"

def argumentFailure (e : ArgumentError) : Notice := .text (e.message ++ "\n\n" ++ usage)

def usageFailure (reason : String) : Notice := .text ("Failed to write usage: " ++ reason)

def accessFailure (path reason : String) : Notice :=
  .text ("Failed to access " ++ path ++ ": " ++ reason)

def stdinFailure (reason : String) : Notice :=
  .text ("Failed to process standard input: " ++ reason)

structure Completion where
  status : Nat
  output : Output
  notices : Array Notice

/-- Holds a session about some lines. Only a failure of a stream makes the status nonzero. -/
def converse (origin : String) (failure : String → Notice)
    (lines : List (Except StreamError String)) (output : Output) : Completion :=
  match (Session.start origin output).run 1 lines with
  | (.ok (), s) => ⟨0, s.output, s.notices⟩
  | (.error e, s) => ⟨1, s.output, s.notices.push (failure e.message)⟩

def printUsage (output : Output) : Completion :=
  match output.write (usage ++ "\n") with
  | (.ok (), output) => ⟨0, output, #[]⟩
  | (.error e, output) => ⟨1, output, #[usageFailure e.message]⟩

def run (args : List String) (files : FileSystem) (stdin : Input) (output : Output) :
    Completion :=
  match Invocation.ofArgs args with
  | .error e => ⟨1, output, #[argumentFailure e]⟩
  | .ok .help => printUsage output
  | .ok (.run none) => converse "stdin" stdinFailure stdin.lines output
  | .ok (.run (some path)) =>
    match files.access path with
    | .error e => ⟨1, output, #[accessFailure path e.message]⟩
    | .ok input => converse path (accessFailure path) input.lines output

end CommandLine

end RegisterCalculator
