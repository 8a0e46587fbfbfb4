import RegisterCalculator.Instruction
import RegisterCalculator.Text.Word

namespace RegisterCalculator

open Text (Span Word)

/-- What is told about a line that is no command: a message, a labelled place in the line, and
sometimes advice. The message is the label where no other is given. -/
structure Rejection where
  message : String
  span : Span
  label : String := message
  help : Option String := none
  deriving DecidableEq

inductive Malformed where
  | unknownOperation (word : Word)
  | invalidLiteral (word : Word) (reason : LiteralError)
  | unrecognized (span : Span)
  deriving DecidableEq

namespace Malformed

def syntaxHelp : String :=
  "Syntax: <register> <" ++ "|".intercalate (Operation.all.map Operation.keyword) ++
    "> <value>, print <register>, or quit"

def operationHelp : String :=
  "Supported operations: " ++ ", ".intercalate (Operation.all.map Operation.keyword)

def rejection : Malformed → Rejection
  | unknownOperation word =>
    { message := "Unknown operation `" ++ word.text ++ "`"
      span := word.span
      label := "not an operation"
      help := some operationHelp }
  | invalidLiteral word reason =>
    { message := "Integer literal `" ++ word.text ++ "` is out of range: " ++ reason.message
      span := word.span
      label := "does not fit in a 64-bit integer" }
  | unrecognized span =>
    { message := "Invalid input"
      span := span
      label := "expected `print <register>` or `<register> <operation> <value>`"
      help := some syntaxHelp }

end Malformed

end RegisterCalculator
