import RegisterCalculator.Proofs.Renaming

namespace RegisterCalculator

/-! The commands that lines ask for, told from the commands that none does. -/

theorem Text.isName_iff_exists {text : String} :
    IsName text ↔ IsLowWord text ∧ ∃ c ∈ text.toList, c.isDigit = false := by
  rw [isName_iff, List.all_eq_false]
  simp only [Bool.not_eq_true]

/-- An operand that words express. There is no sign, and a name of digits would be a numeral. -/
def Operand.Utterable : Operand → Prop
  | literal x => 0 ≤ x.toInt ∧ x.toInt ≤ maxLiteral
  | register name => Text.IsName name

/-- A command that words express. Words of the language are names like any other. -/
def Command.Utterable : Command → Prop
  | define register i => Text.IsStable register ∧ i.operand.Utterable
  | print register => Text.IsStable register
  | quit => True
  | blank => True

theorem Operand.utterable_iff {x : Operand} : x.Utterable ↔ x.Legible := by
  cases x with
  | literal x =>
    have fits : x.toInt ≤ maxLiteral := by
      have bound := x.toInt_lt
      rw [maxLiteral]
      omega
    exact and_iff_left fits
  | register name => exact Text.isName_iff_exists

namespace Command

variable {c : Command}

theorem utterable_iff : c.Utterable ↔ c.Legible := by
  cases c with
  | define register i => exact and_congr Text.isStable_iff Operand.utterable_iff
  | print register => exact Text.isStable_iff
  | quit => exact Iff.rfl
  | blank => exact Iff.rfl

/-- A command that some line asks for is read back from its rendering, and it is one whose names are
words in lowercase, with an operand that is a name and no numeral or a number that a literal has
room for. Every such command is asked for. -/
theorem parse_render_iff (c : Command) :
    ((∃ line, parse line = .ok c) ↔ parse c.render = .ok c) ∧
    ((∃ line, parse line = .ok c) ↔ c.Utterable) := by
  have read : (∃ line, parse line = .ok c) → c.Legible := fun ⟨_, parsed⟩ => legible_of_parse parsed
  have back : c.Legible → parse c.render = .ok c := Legible.parse_render
  rw [utterable_iff]
  constructor
  · exact ⟨fun asked => back (read asked), fun parsed => ⟨c.render, parsed⟩⟩
  · exact ⟨read, fun legible => ⟨c.render, back legible⟩⟩

/-- A command that no line asks for is read from its rendering as another one. -/
example : parse (define "a" ⟨.add, .register "07"⟩).render = .ok (define "a" ⟨.add, .literal 7⟩) := by
  decide

end Command

end RegisterCalculator
