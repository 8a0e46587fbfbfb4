import Mathlib.Data.Int.ModEq
import RegisterCalculator.Proofs.Image

namespace RegisterCalculator

theorem Operation.apply_ofInt (op : Operation) (x y : Int) :
    op.apply (Int64.ofInt x) (Int64.ofInt y) = Int64.ofInt (op.applyExact x y) := by
  cases op with
  | add => exact (Int64.ofInt_add x y).symm
  | subtract => exact (Int64.ofInt_sub x y).symm
  | multiply => exact (Int64.ofInt_mul x y).symm

/-- Cutting a number down to a word may be done before an operation or after it. -/
theorem Accumulator.hom_ofInt : Accumulator.Hom Int64.ofInt where
  ofLiteral x := Int64.ofInt_toInt x
  apply op x y := (op.apply_ofInt x y).symm

theorem toInt_ofInt_modEq (x : Int) : (Int64.ofInt x).toInt ≡ x [ZMOD 2 ^ 64] := by
  rw [Int64.toInt_ofInt]
  exact Int.bmod_emod

namespace Engine

/-- Line by line, a session on words gives the answers and leaves the engines of the session on
exact numbers, with every value cut down to the word that differs from it by a multiple of
`2 ^ 64`. A line that fails does so because of its text or because of a missing register. -/
theorem executeAll_wraps (lines : List String) :
    executeAll lines (empty : Engine Int64) =
      ((executeAll lines (empty : Engine Int)).map fun (answer, e) =>
        (answer.map (Outcome.map Int64.ofInt), e.map Int64.ofInt)) ∧
    (∀ x : Int, -2 ^ 63 ≤ (Int64.ofInt x).toInt ∧ (Int64.ofInt x).toInt < 2 ^ 63 ∧
      (Int64.ofInt x).toInt ≡ x [ZMOD 2 ^ 64]) ∧
    ∀ (line : String) (e : Engine Int64) (error : LineError),
      (e.execute line).1 = .error error →
        (∃ cause, Command.parse line = .error cause ∧ error = .malformed cause) ∨
        ∃ name, Command.parse line = .ok (.print name) ∧ e.store.find? name = none ∧
          error = .fault (.registerNotFound name) := by
  refine ⟨?_, ?_, fun line e error => error_of_execute⟩
  · rw [← executeAll_map Accumulator.hom_ofInt, map_empty]
  · intro x
    exact ⟨Int64.le_toInt _, Int64.toInt_lt _, toInt_ofInt_modEq x⟩

/-- The largest literal and one more do not fit in a word. -/
example : (executeAll ["a add 9223372036854775807", "a add 1", "print a"]
    (empty : Engine Int64)).getLast?.map Prod.fst = some (.ok (.printed Int64.minValue)) := by
  decide +kernel

end Engine

end RegisterCalculator
