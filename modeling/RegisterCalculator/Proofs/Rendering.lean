import RegisterCalculator.Proofs.Lowering
import RegisterCalculator.Proofs.Numerals
import RegisterCalculator.Proofs.Vocabulary

namespace RegisterCalculator

namespace Text

/-- A text that can stand among the words of a line in lowercase. -/
structure IsLowWord (text : String) : Prop where
  word : IsWord text
  low : ∀ c ∈ text.toList, IsLow c

theorem isLowWord_iff {text : String} : IsLowWord text ↔
    text.toList ≠ [] ∧ (text.toList.all fun c => !isBlank c && decide (IsLow c)) = true := by
  simp only [List.all_eq_true, Bool.and_eq_true, Bool.not_eq_true', decide_eq_true_eq]
  constructor
  · exact fun h => ⟨h.word.1, fun c mem => ⟨h.word.2 c mem, h.low c mem⟩⟩
  · rintro ⟨some, each⟩
    exact ⟨⟨some, fun c mem => (each c mem).1⟩, fun c mem => (each c mem).2⟩

instance (text : String) : Decidable (IsLowWord text) := decidable_of_iff _ isLowWord_iff.symm

structure IsStable (text : String) : Prop where
  word : IsWord text
  low : lowercase text.toList = text.toList

theorem isStable_iff {text : String} : IsStable text ↔ IsLowWord text := by
  constructor
  · exact fun stable => ⟨stable.word, lowercase_eq_self_iff.mp stable.low⟩
  · exact fun low => ⟨low.word, lowercase_eq_self_iff.mpr low.low⟩

instance (text : String) : Decidable (IsStable text) := decidable_of_iff _ isStable_iff.symm

theorem isLowWord_of_mem_words {line word : String} (mem : word ∈ words line) : IsLowWord word :=
  ⟨of_mem_words mem, fun _ within => isLow_of_mem_normalize (mem_normalize_of_mem_words mem within)⟩

theorem of_mem_intercalate {separator c : Char} {ws : List (List Char)}
    (mem : c ∈ [separator].intercalate ws) : c = separator ∨ ∃ w ∈ ws, c ∈ w := by
  induction ws with
  | nil => nomatch mem
  | cons w ws ih =>
    cases ws with
    | nil =>
      rw [List.intercalate_singleton] at mem
      exact .inr ⟨w, List.mem_singleton_self w, mem⟩
    | cons v ws =>
      rw [List.intercalate_cons_cons, List.append_assoc, List.mem_append, List.mem_append,
        List.mem_singleton] at mem
      rcases mem with here | same | later
      · exact .inr ⟨w, List.mem_cons_self .., here⟩
      · exact .inl same
      · exact (ih later).imp_right fun ⟨w, among, within⟩ =>
          ⟨w, List.mem_cons_of_mem _ among, within⟩

/-- Words in lowercase, written with single spaces between them, are the words of their line. -/
theorem words_intercalate {ws : List String} (each : ∀ w ∈ ws, IsLowWord w) :
    words (" ".intercalate ws) = ws := by
  have chars : (" ".intercalate ws).toList = [' '].intercalate (ws.map String.toList) :=
    String.toList_intercalate
  have plain : ∀ c ∈ (" ".intercalate ws).toList, IsLow c ∧ isLineEnd c = false := by
    rw [chars]
    intro c mem
    rcases of_mem_intercalate mem with rfl | ⟨_, among, within⟩
    · decide
    · obtain ⟨w, own, rfl⟩ := List.mem_map.mp among
      have letter := (each w own).word.2 c within
      refine ⟨(each w own).low c within, Bool.eq_false_iff.mpr fun ends => ?_⟩
      rw [isBlank_of_isLineEnd ends] at letter
      nomatch letter
  have solid : ∀ w ∈ ws.map String.toList, w ≠ [] ∧ ∀ c ∈ w, isBlank c = false := by
    intro _ among
    obtain ⟨w, own, rfl⟩ := List.mem_map.mp among
    exact (each w own).word
  rw [words, normalize_of_isLow (fun c mem => (plain c mem).1)
      fun c mem => (plain c (List.mem_of_mem_getLast? mem)).2, chars,
    stretches_intercalate solid, List.map_map]
  simp [Function.comp_def]

theorem isLow_and_not_isBlank_of_isDigit {c : Char} (digit : c.isDigit = true) :
    IsLow c ∧ isBlank c = false := by
  have each : Decimal.digits.all (fun c => decide (IsLow c ∧ isBlank c = false)) = true := by decide
  exact of_decide_eq_true (List.all_eq_true.mp each c (Decimal.mem_digits_iff.mpr digit))

theorem isLowWord_repr (n : Nat) : IsLowWord (Nat.repr n) := by
  have each : ∀ c ∈ (Nat.repr n).toList, IsLow c ∧ isBlank c = false := fun _ mem =>
    isLow_and_not_isBlank_of_isDigit (Decimal.isDigit_of_mem_repr mem)
  exact ⟨⟨Decimal.toList_repr_ne_nil n, fun c mem => (each c mem).2⟩, fun c mem => (each c mem).1⟩

end Text

theorem Operation.isLowWord_keyword (op : Operation) : Text.IsLowWord op.keyword := by
  cases op <;> decide

namespace Operand

/-- An operand that some line writes: a literal without a sign, or a word that is not a numeral. -/
def Legible : Operand → Prop
  | literal x => 0 ≤ x.toInt
  | register name => Text.IsLowWord name ∧ ∃ c ∈ name.toList, c.isDigit = false

variable {x : Operand}

theorem Written.legible {word : String} (written : x.Written word) (low : Text.IsLowWord word) :
    x.Legible := by
  cases x with
  | literal x =>
    obtain ⟨_, _, value⟩ := written
    rw [Legible, value]
    exact Int.natCast_nonneg _
  | register name =>
    obtain ⟨rfl, other⟩ := written
    exact ⟨low, other⟩

theorem text_literal {x : Int64} (positive : 0 ≤ x.toInt) :
    (literal x).text = Nat.repr x.toInt.toNat := by
  obtain ⟨n, value⟩ := Int.eq_ofNat_of_zero_le positive
  rw [text, value]
  rfl

theorem Legible.isLowWord_text (legible : x.Legible) : Text.IsLowWord x.text := by
  cases x with
  | literal x =>
    rw [text_literal legible]
    exact Text.isLowWord_repr _
  | register name => exact legible.1

theorem Legible.written_text (legible : x.Legible) : x.Written x.text := by
  cases x with
  | literal x =>
    have bound := x.toInt_lt
    have positive : 0 ≤ x.toInt := legible
    rw [text_literal positive]
    refine ⟨fun _ => Text.Decimal.isDigit_of_mem_repr, ?_, ?_⟩
    · rw [Text.Decimal.value_repr]
      omega
    · rw [Text.Decimal.value_repr]
      omega
  | register name => exact ⟨rfl, legible.2⟩

end Operand

namespace Command

/-- The words of the plainest line that asks for a command. -/
def texts : Command → List String
  | define register i => [register, i.operation.keyword, i.operand.text]
  | print register => ["print", register]
  | quit => ["quit"]
  | blank => []

def Legible : Command → Prop
  | define register i => Text.IsLowWord register ∧ i.operand.Legible
  | print register => Text.IsLowWord register
  | quit => True
  | blank => True

theorem render_eq_intercalate (c : Command) : c.render = " ".intercalate c.texts := by
  cases c with
  | define register i =>
    simp [render, texts, Instruction.text, String.intercalate_cons_cons, String.append_assoc]
  | print register => rfl
  | quit => rfl
  | blank => rfl

variable {c : Command}

theorem Legible.isLowWord (legible : c.Legible) {word : String} (mem : word ∈ c.texts) :
    Text.IsLowWord word := by
  have keyword : Text.IsLowWord "print" ∧ Text.IsLowWord "quit" := by decide
  cases c with
  | define register i =>
    simp only [texts, List.mem_cons, List.not_mem_nil, or_false] at mem
    rcases mem with rfl | rfl | rfl
    · exact legible.1
    · exact i.operation.isLowWord_keyword
    · exact legible.2.isLowWord_text
  | print register =>
    simp only [texts, List.mem_cons, List.not_mem_nil, or_false] at mem
    rcases mem with rfl | rfl
    · exact keyword.1
    · exact legible
  | quit =>
    rw [List.mem_singleton.mp mem]
    exact keyword.2
  | blank => nomatch mem

theorem Legible.written_texts (legible : c.Legible) : c.Written c.texts := by
  cases c with
  | define register i => exact ⟨_, rfl, legible.2.written_text⟩
  | print register => rfl
  | quit => rfl
  | blank => rfl

theorem Legible.words_render (legible : c.Legible) : Text.words c.render = c.texts := by
  rw [render_eq_intercalate, Text.words_intercalate fun _ mem => legible.isLowWord mem]

/-- A command that some line asks for is read back from its plainest line. -/
theorem Legible.parse_render (legible : c.Legible) : parse c.render = .ok c := by
  rw [parse_eq_ok_iff, legible.words_render]
  exact legible.written_texts

theorem legible_of_parse {line : String} (parsed : parse line = .ok c) : c.Legible := by
  have written := parse_eq_ok_iff.mp parsed
  have low : ∀ {word}, word ∈ Text.words line → Text.IsLowWord word := Text.isLowWord_of_mem_words
  cases c with
  | define register i =>
    obtain ⟨t, three, operand⟩ := written
    exact ⟨low (by simp [three]), operand.legible (low (by simp [three]))⟩
  | print register =>
    have two : Text.words line = ["print", register] := written
    exact low (by simp [two])
  | quit => trivial
  | blank => trivial

end Command

end RegisterCalculator
