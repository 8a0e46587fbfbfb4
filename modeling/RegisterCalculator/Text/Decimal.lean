namespace RegisterCalculator.Text.Decimal

/-- A numeral is one ASCII digit or more and nothing else, no sign included. -/
def isNumeral (cs : List Char) : Bool := !cs.isEmpty && cs.all Char.isDigit

def value (cs : List Char) : Nat := Nat.ofDigitChars 10 cs 0

/-- The shortest decimal form, with a minus sign before a negative number. -/
def ofInt : Int → String
  | .ofNat n => Nat.repr n
  | .negSucc n => "-" ++ Nat.repr (n + 1)

theorem value_repr (n : Nat) : value (Nat.repr n).toList = n := by
  simp [value, Nat.repr, Nat.ofDigitChars_toDigits]

theorem isDigit_of_mem_repr {n : Nat} {c : Char} (mem : c ∈ (Nat.repr n).toList) :
    c.isDigit = true := by
  rw [Nat.repr, String.toList_ofList] at mem
  exact Nat.isDigit_of_mem_toDigits (by decide) (by decide) mem

end RegisterCalculator.Text.Decimal
