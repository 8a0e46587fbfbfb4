import Mathlib.Algebra.Group.Nat.Defs
import RegisterCalculator.Command.Parser
import RegisterCalculator.Proofs.Words

namespace RegisterCalculator

open Text (Word words)

theorem Operation.ofKeyword?_eq_none_iff {word : String} :
    ofKeyword? word = none ↔ ∀ op : Operation, word ≠ op.keyword := by
  constructor
  · intro unknown op same
    rw [ofKeyword?_eq_some_iff.mpr same] at unknown
    nomatch unknown
  · intro other
    cases known : ofKeyword? word with
    | none => rfl
    | some op => exact absurd (ofKeyword?_eq_some_iff.mp known) (other op)

namespace Operand

/-- A word of digits alone writes the number that is its decimal value, if a word of 64 bits has
room for it. A word with any other character in it writes a register. -/
def Written (word : String) : Operand → Prop
  | literal x => (∀ c ∈ word.toList, c.isDigit = true) ∧ Text.Decimal.value word.toList < 2 ^ 63 ∧
      x.toInt = Text.Decimal.value word.toList
  | register name => name = word ∧ ∃ c ∈ word.toList, c.isDigit = false

/-- A word of digits whose decimal value does not fit. -/
def TooLarge (word : String) : Prop :=
  (∀ c ∈ word.toList, c.isDigit = true) ∧ 2 ^ 63 ≤ Text.Decimal.value word.toList

theorem isNumeral_iff {cs : List Char} (some : cs ≠ []) :
    Text.Decimal.isNumeral cs = true ↔ ∀ c ∈ cs, c.isDigit = true := by
  simp [Text.Decimal.isNumeral, some]

theorem ofWord_of_other {word : String} {c : Char} (mem : c ∈ word.toList)
    (other : c.isDigit = false) : ofWord word = .ok (register word) := by
  have some : word.toList ≠ [] := List.ne_nil_of_mem mem
  have name : ¬ Text.Decimal.isNumeral word.toList = true := by
    rw [isNumeral_iff some]
    intro digits
    rw [digits c mem] at other
    nomatch other
  rw [ofWord, if_neg name]

theorem ofWord_of_digits {word : String} (some : word.toList ≠ [])
    (digits : ∀ c ∈ word.toList, c.isDigit = true) :
    ofWord word =
      if Text.Decimal.value word.toList < 2 ^ 63 then
        .ok (literal (Int64.ofNat (Text.Decimal.value word.toList)))
      else .error .tooLarge := by
  have bound : Text.Decimal.value word.toList ≤ maxLiteral ↔
      Text.Decimal.value word.toList < 2 ^ 63 := by
    rw [maxLiteral]
    omega
  simp only [ofWord, (isNumeral_iff some).mpr digits, if_true, bound]

theorem ofWord_eq_ok_iff {word : String} (some : word.toList ≠ []) {x : Operand} :
    ofWord word = .ok x ↔ x.Written word := by
  by_cases digits : ∀ c ∈ word.toList, c.isDigit = true
  · have plain : ¬ ∃ c ∈ word.toList, c.isDigit = false := by simpa using digits
    rw [ofWord_of_digits some digits]
    split
    · next fits =>
      have value := Int64.toInt_ofNat_of_lt fits
      cases x with
      | literal x =>
        rw [Except.ok.injEq, literal.injEq, Written, and_iff_right digits, and_iff_right fits,
          ← value, Int64.toInt_inj]
        exact eq_comm
      | register name => simp [Written, plain]
    · next large =>
      cases x with
      | literal x => exact iff_of_false (by simp) fun written => large written.2.1
      | register name => exact iff_of_false (by simp) fun written => plain written.2
  · obtain ⟨c, mem, other⟩ : ∃ c ∈ word.toList, c.isDigit = false := by simpa using digits
    rw [ofWord_of_other mem other]
    cases x with
    | literal x => simp [Written, digits]
    | register name =>
      have named : ∃ c ∈ word.toList, c.isDigit = false := ⟨c, mem, other⟩
      simp only [Written, named, and_true, Except.ok.injEq, register.injEq]
      exact eq_comm

theorem ofWord_eq_error_iff {word : String} (some : word.toList ≠ []) :
    ofWord word = .error .tooLarge ↔ TooLarge word := by
  by_cases digits : ∀ c ∈ word.toList, c.isDigit = true
  · rw [ofWord_of_digits some digits]
    split
    · next fits => exact iff_of_false (by simp) fun large => Nat.not_le.mpr fits large.2
    · next large => exact iff_of_true rfl ⟨digits, Nat.not_lt.mp large⟩
  · obtain ⟨c, mem, other⟩ : ∃ c ∈ word.toList, c.isDigit = false := by simpa using digits
    simp [ofWord_of_other mem other, TooLarge, digits]

end Operand

namespace Malformed

theorem message_unknownOperation (w : Word) :
    (unknownOperation w).rejection.message = "Unknown operation `" ++ w.text ++ "`" := rfl

theorem message_invalidLiteral (w : Word) (reason : LiteralError) :
    (invalidLiteral w reason).rejection.message =
      "Integer literal `" ++ w.text ++ "` is out of range: " ++ reason.message := rfl

theorem message_unrecognized (span : Text.Span) :
    (unrecognized span).rejection.message = "Invalid input" := rfl

/-! The message of a rejection tells its cause: the third letter already does. -/

theorem ne_of_third {a b : String} (differ : a.toList[2]? ≠ b.toList[2]?) : a ≠ b :=
  fun same => differ (congrArg (·.toList[2]?) same)

theorem message_eq_unknown_iff {cause : Malformed} {word : String} :
    cause.rejection.message = "Unknown operation `" ++ word ++ "`" ↔
      ∃ w, cause = unknownOperation w ∧ w.text = word := by
  cases cause with
  | unknownOperation w => simp [message_unknownOperation]
  | invalidLiteral w reason =>
    refine iff_of_false (ne_of_third ?_) (by simp)
    simp [message_invalidLiteral]
  | unrecognized span =>
    refine iff_of_false (ne_of_third ?_) (by simp)
    simp [message_unrecognized]

theorem message_eq_large_iff {cause : Malformed} {word : String} :
    cause.rejection.message =
        "Integer literal `" ++ word ++ "` is out of range: number too large to fit in target type" ↔
      ∃ w, cause = invalidLiteral w .tooLarge ∧ w.text = word := by
  cases cause with
  | invalidLiteral w reason =>
    cases reason
    rw [message_invalidLiteral, LiteralError.message, String.append_assoc]
    simp
  | unknownOperation w =>
    refine iff_of_false (ne_of_third ?_) (by simp)
    simp [message_unknownOperation]
  | unrecognized span =>
    refine iff_of_false (ne_of_third ?_) (by simp)
    simp [message_unrecognized]

theorem message_eq_invalid_iff {cause : Malformed} :
    cause.rejection.message = "Invalid input" ↔ ∃ span, cause = unrecognized span := by
  cases cause with
  | unrecognized span => simp [message_unrecognized]
  | unknownOperation w =>
    refine iff_of_false (ne_of_third ?_) (by simp)
    simp [message_unknownOperation]
  | invalidLiteral w reason =>
    refine iff_of_false (ne_of_third ?_) (by simp)
    simp [message_invalidLiteral]

end Malformed

namespace Command

def Solid (ws : List Word) : Prop := ∀ w ∈ ws, w.text.toList ≠ []

theorem solid_split (line : String) : Solid (Word.split (Text.normalize line)) := by
  intro w mem
  have among : w.text ∈ words line := by
    rw [← Text.map_text_split]
    exact List.mem_map_of_mem mem
  exact (Text.of_mem_words among).1

section Definition

variable {r k t : Word}

theorem ofDefinition_eq_ok_iff (some : t.text.toList ≠ []) {c : Command} :
    ofDefinition r k t = .ok c ↔
      ∃ op x, k.text = op.keyword ∧ x.Written t.text ∧ c = define r.text ⟨op, x⟩ := by
  unfold ofDefinition
  cases known : Operation.ofKeyword? k.text with
  | none =>
    have other := Operation.ofKeyword?_eq_none_iff.mp known
    simp [other]
  | some op =>
    have keyword := Operation.ofKeyword?_eq_some_iff.mp known
    simp only [← Operand.ofWord_eq_ok_iff some]
    cases operand : Operand.ofWord t.text with
    | error reason => simp
    | ok x =>
      simp only [Except.ok.injEq]
      constructor
      · rintro rfl
        exact ⟨op, x, keyword, rfl, rfl⟩
      · rintro ⟨op', x', keyword', rfl, rfl⟩
        rw [Operation.keyword_injective (keyword.symm.trans keyword')]

theorem ofDefinition_eq_define_iff (some : t.text.toList ≠ []) {register : String}
    {op : Operation} {x : Operand} :
    ofDefinition r k t = .ok (define register ⟨op, x⟩) ↔
      ∃ word, [r.text, k.text, t.text] = [register, op.keyword, word] ∧ x.Written word := by
  rw [ofDefinition_eq_ok_iff some]
  constructor
  · rintro ⟨op, x, keyword, written, same⟩
    cases same
    exact ⟨t.text, by rw [keyword], written⟩
  · rintro ⟨word, texts, written⟩
    simp only [List.cons.injEq, and_true] at texts
    obtain ⟨rfl, keyword, rfl⟩ := texts
    exact ⟨op, x, keyword, written, rfl⟩

theorem ofDefinition_eq_unknown_iff {word : String} :
    (∃ w, ofDefinition r k t = .error (.unknownOperation w) ∧ w.text = word) ↔
      ∃ register operand, [r.text, k.text, t.text] = [register, word, operand] ∧
        ∀ op : Operation, word ≠ op.keyword := by
  unfold ofDefinition
  simp only [← Operation.ofKeyword?_eq_none_iff]
  cases known : Operation.ofKeyword? k.text with
  | none =>
    constructor
    · rintro ⟨w, failed, rfl⟩
      cases failed
      exact ⟨r.text, t.text, rfl, known⟩
    · rintro ⟨_, _, texts, _⟩
      cases texts
      exact ⟨k, rfl, rfl⟩
  | some op =>
    refine iff_of_false ?_ ?_
    · rintro ⟨w, failed, _⟩
      cases operand : Operand.ofWord t.text <;> simp [operand] at failed
    · rintro ⟨_, _, texts, unknown⟩
      cases texts
      simp [known] at unknown

theorem ofDefinition_eq_large_iff (some : t.text.toList ≠ []) {word : String} :
    (∃ w, ofDefinition r k t = .error (.invalidLiteral w .tooLarge) ∧ w.text = word) ↔
      ∃ register, ∃ op : Operation, [r.text, k.text, t.text] = [register, op.keyword, word] ∧
        Operand.TooLarge word := by
  unfold ofDefinition
  cases known : Operation.ofKeyword? k.text with
  | none =>
    have other := Operation.ofKeyword?_eq_none_iff.mp known
    simp [other]
  | some op =>
    have keyword := Operation.ofKeyword?_eq_some_iff.mp known
    constructor
    · rintro ⟨w, failed, rfl⟩
      cases operand : Operand.ofWord t.text with
      | ok x => simp [operand] at failed
      | error reason =>
        cases reason
        simp only [operand, Except.error.injEq, Malformed.invalidLiteral.injEq, and_true] at failed
        obtain rfl := failed
        exact ⟨r.text, op, by rw [keyword], (Operand.ofWord_eq_error_iff some).mp operand⟩
    · rintro ⟨_, _, texts, large⟩
      simp only [List.cons.injEq, and_true] at texts
      obtain ⟨_, _, rfl⟩ := texts
      exact ⟨t, by simp [(Operand.ofWord_eq_error_iff some).mpr large], rfl⟩

theorem ofDefinition_ne_unrecognized {span : Text.Span} :
    ofDefinition r k t ≠ .error (.unrecognized span) := by
  unfold ofDefinition
  cases Operation.ofKeyword? k.text with
  | none => simp
  | some op => cases Operand.ofWord t.text <;> simp

end Definition

/-- Three words are a definition. Otherwise their number, and in two places the first of them, decide
what becomes of words. -/
theorem ofWords_cases (ws : List Word) :
    (∃ r k t, ws = [r, k, t] ∧ ofWords ws = ofDefinition r k t) ∨
    (ws.map Word.text = [] ∧ ofWords ws = .ok blank) ∨
    (ws.map Word.text = ["quit"] ∧ ofWords ws = .ok quit) ∨
    (∃ r, ws.map Word.text = ["print", r] ∧ ofWords ws = .ok (print r)) ∨
    ∃ span, ofWords ws = .error (.unrecognized span) ∧ ws.map Word.text ≠ [] ∧
      ws.map Word.text ≠ ["quit"] ∧ (∀ r, ws.map Word.text ≠ ["print", r]) ∧
      ∀ r k t, ws.map Word.text ≠ [r, k, t] := by
  match ws with
  | [] => exact .inr (.inl ⟨rfl, rfl⟩)
  | [w] =>
    by_cases quits : w.text = "quit"
    · exact .inr (.inr (.inl ⟨by simp [quits], by simp [ofWords, quits]⟩))
    · exact .inr (.inr (.inr (.inr ⟨extent w [], by simp [ofWords, quits]⟩)))
  | [w, r] =>
    by_cases prints : w.text = "print"
    · exact .inr (.inr (.inr (.inl ⟨r.text, by simp [prints], by simp [ofWords, prints]⟩)))
    · exact .inr (.inr (.inr (.inr ⟨extent w [r], by simp [ofWords, prints]⟩)))
  | [r, k, t] => exact .inl ⟨r, k, t, rfl, rfl⟩
  | r :: k :: t :: w :: ws =>
    exact .inr (.inr (.inr (.inr ⟨extent r (k :: t :: w :: ws), by simp [ofWords]⟩)))

def Written (ws : List String) : Command → Prop
  | define register i => ∃ t, ws = [register, i.operation.keyword, t] ∧ i.operand.Written t
  | print register => ws = ["print", register]
  | quit => ws = ["quit"]
  | blank => ws = []

theorem parse_eq_ok_iff {line : String} {c : Command} :
    parse line = .ok c ↔ c.Written (words line) := by
  have solid := solid_split line
  rw [← Text.map_text_split]
  rcases ofWords_cases (Word.split (Text.normalize line)) with
    ⟨r, k, t, three, outcome⟩ | ⟨texts, outcome⟩ | ⟨texts, outcome⟩ | ⟨r, texts, outcome⟩ |
    ⟨span, outcome, some, single, double, triple⟩
  · rw [three] at solid ⊢
    have parsed : parse line = _ := outcome
    have some := solid t (by simp)
    rw [parsed]
    cases c with
    | define register i => exact ofDefinition_eq_define_iff some
    | print register => simp [ofDefinition_eq_ok_iff some, Written]
    | quit => simp [ofDefinition_eq_ok_iff some, Written]
    | blank => simp [ofDefinition_eq_ok_iff some, Written]
  · have parsed : parse line = _ := outcome
    cases c <;> simp [parsed, texts, Written]
  · have parsed : parse line = _ := outcome
    cases c <;> simp [parsed, texts, Written]
  · have parsed : parse line = _ := outcome
    cases c <;> simp [parsed, texts, Written]
  · have parsed : parse line = _ := outcome
    cases c <;> simp [parsed, some, single, double, triple, Written]

/-- The message with which a line is refused. -/
def refusal? (line : String) : Option String :=
  match parse line with
  | .ok _ => none
  | .error cause => some cause.rejection.message

theorem refusal?_eq_some_iff {line message : String} :
    refusal? line = some message ↔
      ∃ cause, parse line = .error cause ∧ cause.rejection.message = message := by
  unfold refusal?
  cases parse line <;> simp

theorem refusal?_eq_unknown_iff {line word : String} :
    refusal? line = some ("Unknown operation `" ++ word ++ "`") ↔
      ∃ w, parse line = .error (.unknownOperation w) ∧ w.text = word := by
  simp only [refusal?_eq_some_iff, Malformed.message_eq_unknown_iff]
  constructor
  · rintro ⟨_, parsed, w, rfl, text⟩
    exact ⟨w, parsed, text⟩
  · rintro ⟨w, parsed, text⟩
    exact ⟨_, parsed, w, rfl, text⟩

theorem refusal?_eq_large_iff {line word : String} :
    refusal? line = some ("Integer literal `" ++ word ++
        "` is out of range: number too large to fit in target type") ↔
      ∃ w, parse line = .error (.invalidLiteral w .tooLarge) ∧ w.text = word := by
  simp only [refusal?_eq_some_iff, Malformed.message_eq_large_iff]
  constructor
  · rintro ⟨_, parsed, w, rfl, text⟩
    exact ⟨w, parsed, text⟩
  · rintro ⟨w, parsed, text⟩
    exact ⟨_, parsed, w, rfl, text⟩

theorem refusal?_eq_invalid_iff {line : String} :
    refusal? line = some "Invalid input" ↔ ∃ span, parse line = .error (.unrecognized span) := by
  simp only [refusal?_eq_some_iff, Malformed.message_eq_invalid_iff]
  constructor
  · rintro ⟨_, parsed, span, rfl⟩
    exact ⟨span, parsed⟩
  · rintro ⟨span, parsed⟩
    exact ⟨_, parsed, span, rfl⟩

/-- How lines are read. Without words a line is blank. One word can ask to quit and two can ask for a
print; three words define a register, with a keyword in the middle and an operand behind it. Every
other line is refused, and the message says why. -/
theorem parse_by_words (line : String) :
    (parse line = .ok blank ↔ words line = []) ∧
    (parse line = .ok quit ↔ words line = ["quit"]) ∧
    (∀ r, parse line = .ok (print r) ↔ words line = ["print", r]) ∧
    (∀ r op x, parse line = .ok (define r ⟨op, x⟩) ↔
      ∃ t, words line = [r, op.keyword, t] ∧ x.Written t) ∧
    (∀ k, refusal? line = some ("Unknown operation `" ++ k ++ "`") ↔
      ∃ r t, words line = [r, k, t] ∧ ∀ op : Operation, k ≠ op.keyword) ∧
    (∀ t, refusal? line = some ("Integer literal `" ++ t ++
        "` is out of range: number too large to fit in target type") ↔
      ∃ r, ∃ op : Operation, words line = [r, op.keyword, t] ∧ Operand.TooLarge t) ∧
    (refusal? line = some "Invalid input" ↔
      words line ≠ [] ∧ words line ≠ ["quit"] ∧ (∀ r, words line ≠ ["print", r]) ∧
      ∀ r k t, words line ≠ [r, k, t]) := by
  have solid := solid_split line
  simp only [refusal?_eq_unknown_iff, refusal?_eq_large_iff, refusal?_eq_invalid_iff]
  rw [← Text.map_text_split]
  rcases ofWords_cases (Word.split (Text.normalize line)) with
    ⟨r, k, t, three, outcome⟩ | ⟨texts, outcome⟩ | ⟨texts, outcome⟩ | ⟨r, texts, outcome⟩ |
    ⟨span, outcome, some, single, double, triple⟩
  · rw [three] at solid ⊢
    have parsed : parse line = _ := outcome
    have some := solid t (by simp)
    rw [parsed]
    refine ⟨?_, ?_, ?_, ?_, ?_, ?_, ?_⟩
    · simp [ofDefinition_eq_ok_iff some]
    · simp [ofDefinition_eq_ok_iff some]
    · simp [ofDefinition_eq_ok_iff some]
    · exact fun _ _ _ => ofDefinition_eq_define_iff some
    · exact fun _ => ofDefinition_eq_unknown_iff
    · exact fun _ => ofDefinition_eq_large_iff some
    · simp [ofDefinition_ne_unrecognized]
  · have parsed : parse line = _ := outcome
    simp [parsed, texts]
  · have parsed : parse line = _ := outcome
    simp [parsed, texts]
  · have parsed : parse line = _ := outcome
    simp [parsed, texts]
  · have parsed : parse line = _ := outcome
    simp [parsed, some, single, double, triple]

/-- Where the shape leaves no doubt, `quit`, `print` and keywords are names like any other. -/
example : parse "Quit multiply PRINT" = .ok (define "quit" ⟨.multiply, .register "print"⟩) := by
  decide

end Command

end RegisterCalculator
