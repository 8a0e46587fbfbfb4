import RegisterCalculator.CommandLine

namespace RegisterCalculator

namespace Terminal

def draw : Notice → String
  | .text t => t
  | .report r =>
    let line := r.origin ++ ": " ++ r.source
    let place := "at byte " ++ toString r.offset ++ ", " ++ toString r.length ++ " long: " ++ r.label
    let help := r.help.elim [] (["help: " ++ ·])
    "\n  ".intercalate ([Report.code ++ ": " ++ r.message, line, place] ++ help)

def tell (notices : Array Notice) : IO Unit := do
  let stderr ← IO.getStderr
  for n in notices do
    stderr.putStrLn (draw n)

def emit (output : Output) : IO Unit := do
  let stdout ← IO.getStdout
  unless output.written.isEmpty do
    stdout.write output.written
    stdout.flush

def reason : IO.Error → String
  | .noFileOrDirectory _ code details => details ++ " (os error " ++ toString code ++ ")"
  | .inappropriateType _ code details => details ++ " (os error " ++ toString code ++ ")"
  | .invalidArgument _ code details => details ++ " (os error " ++ toString code ++ ")"
  | .permissionDenied _ code details => details ++ " (os error " ++ toString code ++ ")"
  | e => toString e

partial def readLine (stream : IO.FS.Stream) (sofar : ByteArray) : IO ByteArray := do
  match (← stream.read 1).data.toList with
  | [] => return sofar
  | byte :: _ => if byte = 10 then return sofar.push byte else readLine stream (sofar.push byte)

/-- Reads until the stream ends or fails, or a line ends the session. Nothing behind such a line is
asked for. -/
partial def readInput (stream : IO.FS.Stream) (sofar : ByteArray) : IO Input := do
  let result : Except IO.Error ByteArray ← (readLine stream ByteArray.empty).toBaseIO
  match result with
  | .error e => return ⟨sofar.data.toList, some (.other (reason e))⟩
  | .ok line =>
    let all := sofar ++ line
    match Stream.lines line.data.toList with
    | .ok text :: _ =>
      match Command.parse text with
      | .ok .quit => return .ofBytes all.data.toList
      | _ => readInput stream all
    | _ => return .ofBytes all.data.toList

def access (path : String) : IO (Except StreamError Input) := do
  let result : Except IO.Error IO.FS.Handle ← (IO.FS.Handle.mk path .read).toBaseIO
  match result with
  | .error e => return .error (.other (reason e))
  | .ok handle => return .ok (← readInput (.ofHandle handle) ByteArray.empty)

end Terminal

end RegisterCalculator

open RegisterCalculator in
def main (args : List String) : IO UInt32 := do
  let absent : FileSystem := ⟨fun _ => .error .notFound⟩
  let (files, stdin) ← match Invocation.ofArgs args with
    | .ok (.run none) => pure (absent, ← Terminal.readInput (← IO.getStdin) ByteArray.empty)
    | .ok (.run (some path)) =>
      let input ← Terminal.access path
      pure (⟨fun _ => input⟩, .ofBytes [])
    | _ => pure (absent, .ofBytes [])
  let c := CommandLine.run args files stdin (Output.empty none)
  Terminal.tell c.notices
  Terminal.emit c.output
  return UInt32.ofNat c.status
