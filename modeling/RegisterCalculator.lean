import RegisterCalculator.Text.Blank
import RegisterCalculator.Text.Cased
import RegisterCalculator.Text.Lowercase
import RegisterCalculator.Text.Word
import RegisterCalculator.Text.Decimal
import RegisterCalculator.Operation
import RegisterCalculator.Instruction
import RegisterCalculator.Command.Basic
import RegisterCalculator.Command.Rejection
import RegisterCalculator.Command.Parser
import RegisterCalculator.Fault
import RegisterCalculator.Register
import RegisterCalculator.Store.Lemmas
import RegisterCalculator.Machine
import RegisterCalculator.CommandLine
import RegisterCalculator.Main
import RegisterCalculator.Proofs.Evaluation
import RegisterCalculator.Proofs.Recursion
import RegisterCalculator.Proofs.Reach
import RegisterCalculator.Proofs.Termination
import RegisterCalculator.Proofs.Frames
import RegisterCalculator.Proofs.Reentry
import RegisterCalculator.Proofs.Handover
import RegisterCalculator.Proofs.Image
import RegisterCalculator.Proofs.Wrapping
import RegisterCalculator.Proofs.Locality
import RegisterCalculator.Proofs.Commutation
import RegisterCalculator.Proofs.Denotation
import RegisterCalculator.Proofs.Missing
import RegisterCalculator.Proofs.Passes
import RegisterCalculator.Proofs.Noninterference
import RegisterCalculator.Proofs.Lines
import RegisterCalculator.Proofs.Recording
import RegisterCalculator.Proofs.Dialogue
import RegisterCalculator.Proofs.Limit
import RegisterCalculator.Proofs.Words
import RegisterCalculator.Proofs.Spans
import RegisterCalculator.Proofs.Grammar
import RegisterCalculator.Proofs.Numerals
import RegisterCalculator.Proofs.Marks
import RegisterCalculator.Proofs.Omission
import RegisterCalculator.Proofs.Vocabulary
import RegisterCalculator.Proofs.Transcript
import RegisterCalculator.Proofs.Queue
import RegisterCalculator.Proofs.Isolation
import RegisterCalculator.Proofs.Registry
import RegisterCalculator.Proofs.History
import RegisterCalculator.Proofs.Lowering
import RegisterCalculator.Proofs.Rendering
import RegisterCalculator.Proofs.Reload
import RegisterCalculator.Proofs.Rearrangement
import RegisterCalculator.Proofs.Interleaving
import RegisterCalculator.Proofs.Renaming
import RegisterCalculator.Proofs.LineEnds
import RegisterCalculator.Proofs.Arguments
import RegisterCalculator.Proofs.Relocation
import RegisterCalculator.Proofs.Status
import RegisterCalculator.Proofs.Separation
import RegisterCalculator.Proofs.Stability
import RegisterCalculator.Proofs.Utterance
import RegisterCalculator.Proofs.Boundary
