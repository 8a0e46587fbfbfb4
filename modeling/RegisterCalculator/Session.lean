import RegisterCalculator.Engine.Line
import RegisterCalculator.Notice
import RegisterCalculator.Stream.Output

namespace RegisterCalculator

/-- A dialogue: lines change the engine, and are answered on the output and by notices. -/
structure Session where
  origin : String
  engine : Engine Int64
  output : Output
  notices : Array Notice

inductive Progress where
  | more
  | ended (result : Except StreamError Unit)

namespace Session

def start (origin : String) (output : Output) : Session := ⟨origin, Engine.empty, output, #[]⟩

/-- What is told about a line that was not carried out. A report shows the line as it was read. -/
def errorNotice (origin line : String) : LineError → Notice
  | .malformed cause => .report (Report.ofRejection origin (Text.normalize line) cause.rejection)
  | .fault cause => .text (Notice.faultText origin cause)

def answer (origin line : String) (s : Session) :
    Except LineError (Outcome Int64) → Progress × Session
  | .ok (.printed value) =>
    let (result, output) := s.output.write (Text.Decimal.ofInt value.toInt ++ "\n")
    match result with
    | .ok () => (.more, { s with output })
    | .error e => (.ended (.error e), { s with output })
  | .ok .quit => (.ended (.ok ()), s)
  | .ok .defined => (.more, s)
  | .ok .skipped => (.more, s)
  | .error e => (.more, { s with notices := s.notices.push (errorNotice origin line e) })

/-- Carries out the line with a number. What its evaluation recorded is told before its outcome. -/
def feed (number : Nat) (line : String) : Session → Progress × Session
  | ⟨name, engine, output, notices⟩ =>
    let (outcome, engine) := engine.execute line
    let (diagnostics, engine) := engine.drain
    let origin := name ++ ":" ++ Nat.repr number
    let told := diagnostics.map (.text <| Notice.diagnosticText origin ·)
    answer origin line ⟨name, engine, output, notices ++ told⟩ outcome

/-- Carries out lines from a number on, until one of them ends the session or cannot be read. -/
def run (number : Nat) (s : Session) :
    List (Except StreamError String) → Except StreamError Unit × Session
  | [] => (.ok (), s)
  | .error e :: _ => (.error e, s)
  | .ok line :: rest =>
    match s.feed number line with
    | (.more, s) => run (number + 1) s rest
    | (.ended result, s) => (result, s)

end Session

end RegisterCalculator
