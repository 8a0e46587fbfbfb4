namespace RegisterCalculator.Text

structure CodeRange where
  first : Nat
  last : Nat
  deriving DecidableEq

namespace CodeRange

/-- Whether an ascending list of ranges covers a code point. The search ends at the first range
that lies beyond it. -/
def covers (code : Nat) : List CodeRange → Bool
  | [] => false
  | r :: rs => if code < r.first then false else code ≤ r.last || covers code rs

end CodeRange

/-- The code points with the Unicode property White_Space. -/
def blankRanges : List CodeRange :=
  [ ⟨0x9, 0xD⟩, ⟨0x20, 0x20⟩, ⟨0x85, 0x85⟩, ⟨0xA0, 0xA0⟩, ⟨0x1680, 0x1680⟩, ⟨0x2000, 0x200A⟩,
    ⟨0x2028, 0x2029⟩, ⟨0x202F, 0x202F⟩, ⟨0x205F, 0x205F⟩, ⟨0x3000, 0x3000⟩ ]

def isBlank (c : Char) : Bool := CodeRange.covers c.toNat blankRanges

end RegisterCalculator.Text
