import RegisterCalculator.Command.Rejection
import RegisterCalculator.Fault
import RegisterCalculator.Text.Word

namespace RegisterCalculator

/-- A rejection together with the line it is about and where that line came from. -/
structure Report where
  message : String
  label : String
  offset : Nat
  length : Nat
  help : Option String
  origin : String
  source : String
  deriving DecidableEq

namespace Report

def code : String := "regcalc::command"

def ofRejection (origin source : String) (r : Rejection) : Report :=
  ⟨r.message, r.label, r.span.start, r.span.length, r.help, origin, source⟩

end Report

inductive Notice where
  | text (text : String)
  | report (report : Report)
  deriving DecidableEq

namespace Notice

def faultText (origin : String) (f : Fault) : String := origin ++ ": Runtime error: " ++ f.message

def diagnosticText (origin : String) (d : Diagnostic) : String :=
  origin ++ ": Runtime error while evaluating `" ++ d.register ++ "`: " ++ d.fault.message

/-- A text shows as one item a line; a report is a single item. -/
def items : Notice → List Notice
  | text t => (Text.pieces '\n' t.toList).map (text <| String.ofList ·)
  | report r => [report r]

end Notice

end RegisterCalculator
