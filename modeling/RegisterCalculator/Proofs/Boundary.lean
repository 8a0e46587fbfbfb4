import RegisterCalculator.Engine.Line
import RegisterCalculator.Proofs.Rendering

namespace RegisterCalculator

open Text (Word IsStable)

/-! An instruction is given by three words, or by the line made of them. Each way has its own check. -/

/-- What the two checks make of three words. -/
inductive Checked (register operation operand : Word) : Prop where
  | accepted (i : Instruction) (keyword : operation.text = i.operation.keyword)
    (given : Instruction.ofWords operation.text operand.text = .ok i)
    (read : Command.ofDefinition register operation operand = .ok (.define register.text i))
  | unknown (other : ∀ op : Operation, operation.text ≠ op.keyword)
    (given : Instruction.ofWords operation.text operand.text =
      .error (.invalidOperation operation.text))
    (read : Command.ofDefinition register operation operand = .error (.unknownOperation operation))
  | unfit (op : Operation) (keyword : operation.text = op.keyword) (reason : LiteralError)
    (given : Instruction.ofWords operation.text operand.text =
      .error (.invalidOperand operand.text reason.message))
    (read : Command.ofDefinition register operation operand =
      .error (.invalidLiteral operand reason))

theorem checked (register operation operand : Word) : Checked register operation operand := by
  cases known : Operation.ofKeyword? operation.text with
  | none =>
    refine .unknown (Operation.ofKeyword?_eq_none_iff.mp known) ?_ ?_
    · simp only [Instruction.ofWords, known]
    · simp only [Command.ofDefinition, known]
  | some op =>
    cases value : Operand.ofWord operand.text with
    | error reason =>
      refine .unfit op (Operation.ofKeyword?_eq_some_iff.mp known) reason ?_ ?_
      · simp only [Instruction.ofWords, known, value]
      · simp only [Command.ofDefinition, known, value]
    | ok x =>
      refine .accepted ⟨op, x⟩ (Operation.ofKeyword?_eq_some_iff.mp known) ?_ ?_
      · simp only [Instruction.ofWords, known, value]
      · simp only [Command.ofDefinition, known, value]

def sentence (register operation operand : String) : String :=
  register ++ " " ++ operation ++ " " ++ operand

theorem sentence_eq_intercalate (r op x : String) : sentence r op x = " ".intercalate [r, op, x] := by
  simp [sentence, String.intercalate_cons_cons, String.append_assoc]

theorem exists_parse_sentence {r op x : String} (register : IsStable r) (operation : IsStable op)
    (operand : IsStable x) :
    ∃ a b c : Word, a.text = r ∧ b.text = op ∧ c.text = x ∧
      Command.parse (sentence r op x) = Command.ofDefinition a b c := by
  have low : ∀ w ∈ [r, op, x], Text.IsLowWord w := by
    intro w mem
    rw [← Text.isStable_iff]
    simp only [List.mem_cons, List.not_mem_nil, or_false] at mem
    rcases mem with rfl | rfl | rfl
    · exact register
    · exact operation
    · exact operand
  have texts := Text.map_text_split (sentence r op x)
  rw [sentence_eq_intercalate, Text.words_intercalate low] at texts
  obtain ⟨a, _, split, first, rest⟩ := List.map_eq_cons_iff.mp texts
  obtain ⟨b, _, rfl, second, rest⟩ := List.map_eq_cons_iff.mp rest
  obtain ⟨c, _, rfl, third, rest⟩ := List.map_eq_cons_iff.mp rest
  obtain rfl := List.map_eq_nil_iff.mp rest
  refine ⟨a, b, c, first, second, third, ?_⟩
  rw [Command.parse, sentence_eq_intercalate, split, Command.ofWords]

namespace Engine

variable {α : Type} [Accumulator α]

/-- Three words and the line made of them come to the same: both succeed and leave the same engine,
or both fail for the same reason and change nothing. -/
theorem add_agrees_execute {r op x : String} (register : IsStable r) (operation : IsStable op)
    (operand : IsStable x) (e : Engine α) :
    ((∃ id after, e.add r op x = (.ok id, after) ∧
        e.execute (sentence r op x) = (.ok .defined, after)) ∨
      ∃ fault cause, e.add r op x = (.error fault, e) ∧
        e.execute (sentence r op x) = (.error (.malformed cause), e)) ∧
    ((e.add r op x).1 = .error (.invalidOperation op) ↔
      ∃ w, (e.execute (sentence r op x)).1 = .error (.malformed (.unknownOperation w)) ∧
        w.text = op) ∧
    ((e.add r op x).1 = .error (.invalidOperation op) ↔ ∀ known : Operation, op ≠ known.keyword) ∧
    ((∃ reason, (e.add r op x).1 = .error (.invalidOperand x reason)) ↔
      ∃ w reason, (e.execute (sentence r op x)).1 = .error (.malformed (.invalidLiteral w reason)) ∧
        w.text = x) ∧
    ∀ fault cause, (e.add r op x).1 = .error fault →
      (e.execute (sentence r op x)).1 = .error (.malformed cause) →
      (fault.message = "Invalid operation `" ++ op ++ "`" ∧
        cause.rejection.message = "Unknown operation `" ++ op ++ "`") ∨
      ∃ reason : LiteralError, fault.message = "Invalid operand `" ++ x ++ "`: " ++ reason.message ∧
        cause.rejection.message =
          "Integer literal `" ++ x ++ "` is out of range: " ++ reason.message := by
  obtain ⟨a, b, c, rfl, rfl, rfl, parsed⟩ := exists_parse_sentence register operation operand
  cases checked a b c with
  | accepted i keyword given read =>
    have added : e.add a.text b.text c.text = (.ok (e.push a.text i).1, (e.push a.text i).2) := by
      simp only [add, given]
    have executed : e.execute (sentence a.text b.text c.text) =
        (.ok .defined, (e.push a.text i).2) := by
      simp only [execute, parsed, read, perform]
    refine ⟨.inl ⟨_, _, added, executed⟩, ?_, ?_, ?_, ?_⟩
    · simp [added, executed]
    · exact iff_of_false (by simp [added]) fun other => other i.operation keyword
    · simp [added, executed]
    · simp [added]
  | unknown other given read =>
    have added : e.add a.text b.text c.text = (.error (.invalidOperation b.text), e) := by
      simp only [add, given]
    have executed : e.execute (sentence a.text b.text c.text) =
        (.error (.malformed (.unknownOperation b)), e) := by
      simp only [execute, parsed, read]
    refine ⟨.inr ⟨_, _, added, executed⟩, ?_, ?_, ?_, ?_⟩
    · simp [added, executed]
    · exact iff_of_true (by rw [added]) other
    · simp [added, executed]
    · intro fault cause failed refused
      rw [added, Except.error.injEq] at failed
      rw [executed, Except.error.injEq, LineError.malformed.injEq] at refused
      rw [← failed, ← refused]
      exact .inl ⟨rfl, rfl⟩
  | unfit op keyword reason given read =>
    have added : e.add a.text b.text c.text =
        (.error (.invalidOperand c.text reason.message), e) := by
      simp only [add, given]
    have executed : e.execute (sentence a.text b.text c.text) =
        (.error (.malformed (.invalidLiteral c reason)), e) := by
      simp only [execute, parsed, read]
    refine ⟨.inr ⟨_, _, added, executed⟩, ?_, ?_, ?_, ?_⟩
    · simp [added, executed]
    · exact iff_of_false (by simp [added]) fun other => other op keyword
    · exact iff_of_true ⟨reason.message, by rw [added]⟩ ⟨c, reason, by rw [executed], rfl⟩
    · intro fault cause failed refused
      rw [added, Except.error.injEq] at failed
      rw [executed, Except.error.injEq, LineError.malformed.injEq] at refused
      rw [← failed, ← refused]
      exact .inr ⟨reason, rfl, rfl⟩

theorem add_agrees_execute_divide :
    (IsStable "total" ∧ IsStable "divide" ∧ IsStable "9223372036854775808") ∧
    (∀ known : Operation, "divide" ≠ known.keyword) ∧
    ∃ w, ((empty : Engine Int64).execute (sentence "total" "divide" "9223372036854775808")).1 =
      .error (.malformed (.unknownOperation w)) ∧ w.text = "divide" := by
  have register : IsStable "total" := by decide
  have operation : IsStable "divide" := by decide
  have operand : IsStable "9223372036854775808" := by decide
  have other : ∀ known : Operation, "divide" ≠ known.keyword := by
    intro known
    cases known <;> decide
  obtain ⟨_, agree, unknown, _⟩ :=
    add_agrees_execute register operation operand (empty : Engine Int64)
  exact ⟨⟨register, operation, operand⟩, other, agree.mp (unknown.mpr other)⟩

end Engine

end RegisterCalculator
