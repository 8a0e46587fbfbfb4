import RegisterCalculator.Text.Blank

namespace RegisterCalculator.Text

/-- A stretch of a text, in UTF-8 bytes from its start. `stop` is the offset behind it. -/
structure Span where
  start : Nat
  stop : Nat
  deriving DecidableEq

def Span.length (s : Span) : Nat := s.stop - s.start

/-- A run of characters without blanks and the place where it stands. -/
structure Word where
  chars : List Char
  span : Span
  deriving DecidableEq

namespace Word

def text (w : Word) : String := String.ofList w.chars

/-- Puts the character between two offsets before the words behind it. A word that starts right
where the character ends takes it in; otherwise the character is a word. -/
def attach (c : Char) (start stop : Nat) : List Word → List Word
  | [] => [⟨[c], ⟨start, stop⟩⟩]
  | w :: ws =>
    if w.span.start = stop then ⟨c :: w.chars, ⟨start, w.span.stop⟩⟩ :: ws
    else ⟨[c], ⟨start, stop⟩⟩ :: w :: ws

/-- The words of a text that starts at an offset. -/
def splitFrom (offset : Nat) : List Char → List Word
  | [] => []
  | c :: cs =>
    let words := splitFrom (offset + c.utf8Size) cs
    if isBlank c then words else attach c offset (offset + c.utf8Size) words

/-- The maximal runs of characters that are not blank, in order. -/
def split (text : String) : List Word := splitFrom 0 text.toList

end Word

/-- The stretches of a text between the occurrences of a separator, empty ones included. -/
def pieces (separator : Char) : List Char → List (List Char)
  | [] => [[]]
  | c :: cs =>
    match pieces separator cs with
    | [] => []
    | p :: ps => if c = separator then [] :: p :: ps else (c :: p) :: ps

end RegisterCalculator.Text
