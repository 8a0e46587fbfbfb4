import Mathlib.Algebra.Group.Int.Defs
import RegisterCalculator.Proofs.Grammar

namespace RegisterCalculator

namespace Text

namespace Decimal

def digits : List Char := ['0', '1', '2', '3', '4', '5', '6', '7', '8', '9']

def digit (c : Char) : Nat := digits.idxOf c

/-- The number that digits write by their places: each counts a power of ten, with as many zeros as
there are digits behind it. -/
def places : List Char → Nat
  | [] => 0
  | c :: cs => digit c * 10 ^ cs.length + places cs

theorem mem_digits_iff {c : Char} : c ∈ digits ↔ c.isDigit = true := by
  constructor
  · intro mem
    have each : digits.all Char.isDigit = true := by decide
    exact List.all_eq_true.mp each c mem
  · intro isDigit
    have range : 48 ≤ c.toNat ∧ c.toNat ≤ 57 := by
      simpa [Char.isDigit, UInt32.le_iff_toNat_le] using isDigit
    have each : ∀ n : Fin 10, Char.ofNat (48 + n) ∈ digits := by decide
    have this := each ⟨c.toNat - 48, by omega⟩
    rwa [Nat.add_sub_of_le range.1, Char.ofNat_toNat] at this

theorem mem_digits_of_mem_repr {n : Nat} {c : Char} (mem : c ∈ (Nat.repr n).toList) : c ∈ digits :=
  mem_digits_iff.mpr (isDigit_of_mem_repr mem)

theorem toList_repr_ne_nil (n : Nat) : (Nat.repr n).toList ≠ [] := by
  rw [Nat.toList_repr]
  exact Nat.toDigits_ne_nil

theorem digit_of_mem {c : Char} (mem : c ∈ digits) : digit c = c.toNat - '0'.toNat := by
  have each : digits.all (fun c => digit c == c.toNat - '0'.toNat) = true := by decide
  exact eq_of_beq (List.all_eq_true.mp each c mem)

/-- Taking in one digit after the other gives each the power of ten of its place. -/
theorem value_eq_places {cs : List Char} (numeric : ∀ c ∈ cs, c ∈ digits) :
    value cs = places cs := by
  induction cs with
  | nil => rfl
  | cons c cs ih =>
    obtain ⟨here, numeric⟩ := List.forall_mem_cons.mp numeric
    have rest : Nat.ofDigitChars 10 cs 0 = places cs := ih numeric
    rw [value, Nat.ofDigitChars_cons, Nat.ofDigitChars_eq_ofDigitChars_zero, rest, places,
      digit_of_mem here, Nat.mul_zero, Nat.zero_add, Nat.mul_comm]

theorem places_zeros_append (zeros : Nat) (cs : List Char) :
    places (List.replicate zeros '0' ++ cs) = places cs := by
  induction zeros with
  | zero => rfl
  | succ zeros ih =>
    have nothing : digit '0' = 0 := by decide
    rw [List.replicate_succ, List.cons_append, places, ih, nothing, Nat.zero_mul, Nat.zero_add]

/-! A numeral can be read within words of 64 bits. -/

/-- The word that holds a number, if there is room for it. -/
def word? (n : Int) : Option Int64 :=
  if -2 ^ 63 ≤ n ∧ n < 2 ^ 63 then some (Int64.ofInt n) else none

/-- Puts a digit behind a number. First the product and then the sum have to fit. -/
def extend? (x : Int64) (c : Char) : Option Int64 := do
  let tens ← word? (x.toInt * 10)
  word? (tens.toInt + digit c)

def read? (cs : List Char) : Option Int64 := cs.foldlM extend? 0

theorem word?_toInt (x : Int64) : word? x.toInt = some x := by
  rw [word?, if_pos ⟨x.le_toInt, x.toInt_lt⟩, Int64.ofInt_toInt]

theorem word?_cases {n : Int} (positive : 0 ≤ n) :
    (∃ x : Int64, word? n = some x ∧ x.toInt = n) ∨ word? n = none ∧ 2 ^ 63 ≤ n := by
  by_cases fits : n < 2 ^ 63
  · have low : -2 ^ 63 ≤ n := by omega
    exact .inl ⟨Int64.ofInt n, by rw [word?, if_pos ⟨low, fits⟩], Int64.toInt_ofInt_of_le low fits⟩
  · exact .inr ⟨by rw [word?, if_neg fun both => fits both.2], by omega⟩

theorem word?_eq_none {n : Int} (large : 2 ^ 63 ≤ n) : word? n = none := by
  rw [word?, if_neg fun both => Int.not_lt.mpr large both.2]

theorem extend?_eq {x : Int64} (positive : 0 ≤ x.toInt) (c : Char) :
    extend? x c = word? (x.toInt * 10 + digit c) := by
  rcases word?_cases (n := x.toInt * 10) (by omega) with ⟨tens, held, value⟩ | ⟨none, large⟩
  · simp only [extend?, held, Option.bind_eq_bind, Option.bind_some, value]
  · rw [word?_eq_none (by omega), extend?, none]
    rfl

/-- A word that overflows on the way would have overflowed at the end: more digits never make a
number smaller. -/
theorem foldlM_extend? (cs : List Char) {x : Int64} (positive : 0 ≤ x.toInt) :
    cs.foldlM extend? x = word? (x.toInt * 10 ^ cs.length + places cs) := by
  induction cs generalizing x with
  | nil => simp [places, word?_toInt]
  | cons c cs ih =>
    have shift : x.toInt * 10 ^ (c :: cs).length + places (c :: cs) =
        (x.toInt * 10 + digit c) * 10 ^ cs.length + places cs := by
      rw [List.length_cons, places, Int.pow_succ]
      push_cast
      rw [Int.add_mul, Int.mul_assoc, Int.mul_comm 10, Int.add_assoc]
    rw [List.foldlM_cons, extend?_eq positive, shift]
    rcases word?_cases (n := x.toInt * 10 + digit c) (by omega) with ⟨y, held, value⟩ | ⟨none, large⟩
    · rw [held, ← value]
      exact ih (by omega)
    · have grown : x.toInt * 10 + digit c ≤ (x.toInt * 10 + digit c) * 10 ^ cs.length := by
        have one : (1 : Int) ≤ 10 ^ cs.length := Int.pow_pos (by decide)
        have product := Int.mul_le_mul_of_nonneg_left one (c := x.toInt * 10 + digit c) (by omega)
        rwa [Int.mul_one] at product
      rw [none, word?_eq_none (by omega)]
      rfl

theorem read?_eq (cs : List Char) : read? cs = word? (places cs) := by
  have zero : (0 : Int64).toInt = 0 := rfl
  rw [read?, foldlM_extend? cs (Int.le_of_eq zero.symm), zero, Int.zero_mul, Int.zero_add]

end Decimal

def IsNumeral (text : String) : Prop := text ≠ "" ∧ ∀ c ∈ text.toList, c ∈ Decimal.digits

theorem isNumeral_iff {text : String} :
    IsNumeral text ↔ Decimal.isNumeral text.toList = true := by
  simp [IsNumeral, Decimal.isNumeral, Decimal.mem_digits_iff]

instance (text : String) : Decidable (IsNumeral text) := decidable_of_iff _ isNumeral_iff.symm

/-- Zeros in front of a decimal form. -/
def padded (zeros n : Nat) : String :=
  String.ofList (List.replicate zeros '0') ++ Decimal.ofInt n

theorem toList_padded (zeros n : Nat) :
    (padded zeros n).toList = List.replicate zeros '0' ++ (Nat.repr n).toList := by
  rw [padded, String.toList_append, String.toList_ofList]
  rfl

theorem isNumeral_padded (zeros n : Nat) : IsNumeral (padded zeros n) := by
  constructor
  · intro empty
    have none := congrArg String.toList empty
    rw [toList_padded] at none
    exact Decimal.toList_repr_ne_nil n (List.append_eq_nil_iff.mp none).2
  · intro c mem
    rw [toList_padded, List.mem_append] at mem
    rcases mem with front | own
    · have zero : '0' ∈ Decimal.digits := by decide
      rwa [List.eq_of_mem_replicate front]
    · exact Decimal.mem_digits_of_mem_repr own

theorem places_padded (zeros n : Nat) : Decimal.places (padded zeros n).toList = n := by
  rw [toList_padded, Decimal.places_zeros_append,
    ← Decimal.value_eq_places fun _ => Decimal.mem_digits_of_mem_repr, Decimal.value_repr]

end Text

namespace Operand

open Text (IsNumeral padded)
open Text.Decimal (places read?)

variable {word : String}

theorem ofWord_of_isNumeral (numeric : IsNumeral word) :
    ofWord word =
      if places word.toList < 2 ^ 63 then .ok (literal (Int64.ofNat (places word.toList)))
      else .error .tooLarge := by
  have some : word.toList ≠ [] := fun empty => numeric.1 (String.toList_eq_nil_iff.mp empty)
  rw [ofWord_of_digits some fun c mem => Text.Decimal.mem_digits_iff.mp (numeric.2 c mem),
    Text.Decimal.value_eq_places numeric.2]

theorem ofWord_of_places_lt (numeric : IsNumeral word) (fits : places word.toList < 2 ^ 63) :
    ∃ x, ofWord word = .ok (literal x) ∧ x.toInt = places word.toList :=
  ⟨_, by rw [ofWord_of_isNumeral numeric, if_pos fits], Int64.toInt_ofNat_of_lt fits⟩

/-- Reading a numeral within words of 64 bits gives its literal, and overflows just when there is
none. -/
theorem ofWord_eq_read? (numeric : IsNumeral word) :
    ofWord word = (read? word.toList).elim (.error .tooLarge) (.ok <| literal ·) := by
  rw [Text.Decimal.read?_eq]
  rcases Text.Decimal.word?_cases (n := places word.toList) (by omega) with
    ⟨x, held, value⟩ | ⟨none, large⟩
  · have bound := x.toInt_lt
    obtain ⟨y, read, same⟩ := ofWord_of_places_lt numeric (by omega)
    obtain rfl : y = x := Int64.toInt_inj.mp (same.trans value.symm)
    rw [read, held, Option.elim_some]
  · rw [ofWord_of_isNumeral numeric, if_neg (by omega), none, Option.elim_none]

theorem ofWord_of_not_isNumeral (other : ¬ IsNumeral word) : ofWord word = .ok (register word) := by
  rw [ofWord, if_neg fun numeric => other (Text.isNumeral_iff.mpr numeric)]

/-- A word of ASCII digits alone is the literal that its places add up to, as far as 64 bits go, and
beyond them a fault. It can be read within words of 64 bits, however many digits there are. -/
theorem ofWord_exact :
    (∀ word, IsNumeral word →
      (places word.toList ≤ 2 ^ 63 - 1 →
        ∃ x, ofWord word = .ok (literal x) ∧ x.toInt = places word.toList) ∧
      (2 ^ 63 ≤ places word.toList →
        ∃ reason, ofWord word = .error reason ∧
          reason.message = "number too large to fit in target type") ∧
      ofWord word = (read? word.toList).elim (.error .tooLarge) (.ok <| literal ·)) ∧
    (∀ word, ¬ IsNumeral word → ofWord word = .ok (register word)) ∧
    ∀ zeros n : Nat, n < 2 ^ 63 → ∃ x, ofWord (padded zeros n) = .ok (literal x) ∧ x.toInt = n := by
  refine ⟨fun word numeric => ⟨?_, ?_, ofWord_eq_read? numeric⟩,
    fun word => ofWord_of_not_isNumeral, ?_⟩
  · intro fits
    exact ofWord_of_places_lt numeric (by omega)
  · intro large
    exact ⟨.tooLarge, by rw [ofWord_of_isNumeral numeric, if_neg (Nat.not_lt.mpr large)], rfl⟩
  · intro zeros n fits
    have value := Text.places_padded zeros n
    obtain ⟨x, read, same⟩ := ofWord_of_places_lt (Text.isNumeral_padded zeros n) (by rwa [value])
    exact ⟨x, read, by rw [same, value]⟩

theorem ofWord_exact_limit :
    (IsNumeral "0009223372036854775807" ∧
      ∃ x, ofWord "0009223372036854775807" = .ok (literal x) ∧ x.toInt = 9223372036854775807) ∧
    (IsNumeral "9223372036854775808" ∧ ∃ reason, ofWord "9223372036854775808" = .error reason) ∧
    (¬ IsNumeral "\u0663" ∧ ofWord "\u0663" = .ok (register "\u0663")) ∧
    ∃ x, ofWord (padded 2 7) = .ok (literal x) ∧ x.toInt = 7 := by
  have largest : IsNumeral "0009223372036854775807" := by decide
  have next : IsNumeral "9223372036854775808" := by decide
  have other : ¬ IsNumeral "\u0663" := by decide
  have value : places "0009223372036854775807".toList = 9223372036854775807 := by decide
  have beyond : places "9223372036854775808".toList = 9223372036854775808 := by decide
  obtain ⟨numeral, named, reads⟩ := ofWord_exact
  obtain ⟨x, read, same⟩ := (numeral _ largest).1 (by rw [value]; decide)
  obtain ⟨reason, refused, -⟩ := (numeral _ next).2.1 (by rw [beyond]; decide)
  refine ⟨⟨largest, x, read, ?_⟩, ⟨next, reason, refused⟩, ⟨other, named _ other⟩, ?_⟩
  · rw [same, value]
    rfl
  · exact reads 2 7 (by decide)

end Operand

end RegisterCalculator
