namespace RegisterCalculator

inductive Operation where
  | add
  | subtract
  | multiply
  deriving DecidableEq

namespace Operation

def all : List Operation := [add, subtract, multiply]

def keyword : Operation → String
  | add => "add"
  | subtract => "subtract"
  | multiply => "multiply"

def ofKeyword? (word : String) : Option Operation := all.find? (·.keyword == word)

/-- Arithmetic on 64-bit words. Overflow wraps. -/
def apply : Operation → Int64 → Int64 → Int64
  | add, x, y => x + y
  | subtract, x, y => x - y
  | multiply, x, y => x * y

def applyExact : Operation → Int → Int → Int
  | add, x, y => x + y
  | subtract, x, y => x - y
  | multiply, x, y => x * y

theorem keyword_injective {a b : Operation} (h : a.keyword = b.keyword) : a = b := by
  cases a <;> cases b <;> simp_all [keyword]

theorem ofKeyword?_eq_some_iff {word : String} {op : Operation} :
    ofKeyword? word = some op ↔ word = op.keyword := by
  constructor
  · intro h
    unfold ofKeyword? at h
    have found := List.find?_some h
    exact (eq_of_beq found).symm
  · rintro rfl
    cases op <;> decide

end Operation

/-- The values a register can hold: how a literal is read as one and what each operation does. -/
class Accumulator (α : Type) where
  ofLiteral : Int64 → α
  apply : Operation → α → α → α

namespace Accumulator

/-- The value of a register that nothing has run yet. -/
def zero {α : Type} [Accumulator α] : α := ofLiteral 0

instance : Accumulator Int64 := ⟨id, Operation.apply⟩

instance : Accumulator Int := ⟨Int64.toInt, Operation.applyExact⟩

end Accumulator

end RegisterCalculator
