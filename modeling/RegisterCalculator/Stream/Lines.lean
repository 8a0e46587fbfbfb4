import RegisterCalculator.Stream.Error

namespace RegisterCalculator.Stream

/-- The bytes of a line without its line feed, and whether a line feed ends it. Only the last line
of a stream may lack one. -/
structure RawLine where
  bytes : List UInt8
  terminated : Bool
  deriving DecidableEq

namespace RawLine

/-- A carriage return right before the line feed belongs to the line's end. -/
def content (l : RawLine) : List UInt8 :=
  if l.terminated && l.bytes.getLast? == some 13 then l.bytes.dropLast else l.bytes

def attach (byte : UInt8) : List RawLine → List RawLine
  | [] => if byte = 10 then [⟨[], true⟩] else [⟨[byte], false⟩]
  | l :: ls => if byte = 10 then ⟨[], true⟩ :: l :: ls else ⟨byte :: l.bytes, l.terminated⟩ :: ls

def split (bytes : List UInt8) : List RawLine := bytes.foldr attach []

end RawLine

def decode (bytes : List UInt8) : Except StreamError String :=
  match String.fromUTF8? bytes.toByteArray with
  | some text => .ok text
  | none => .error .invalidUtf8

/-- The lines of a stream. Each is decoded by itself, so that a bad one spoils no other. -/
def lines (bytes : List UInt8) : List (Except StreamError String) :=
  (RawLine.split bytes).map (decode ·.content)

end RegisterCalculator.Stream

namespace RegisterCalculator

/-- What a stream has to read: bytes, and behind them a failure unless they are all there is. -/
structure Input where
  bytes : List UInt8
  failure : Option StreamError

namespace Input

def ofBytes (bytes : List UInt8) : Input := ⟨bytes, none⟩

instance : Coe (List UInt8) Input := ⟨ofBytes⟩

/-- A failure takes the place of the line that is being read. -/
def lines : Input → List (Except StreamError String)
  | ⟨bytes, none⟩ => Stream.lines bytes
  | ⟨bytes, some e⟩ =>
    ((Stream.RawLine.split bytes).filter (·.terminated)).map (Stream.decode ·.content) ++ [.error e]

end Input

end RegisterCalculator
