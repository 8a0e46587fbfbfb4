import Mathlib.Data.List.DropRight
import RegisterCalculator.Proofs.Dialogue
import RegisterCalculator.Proofs.Grammar
import RegisterCalculator.Proofs.Spans

namespace RegisterCalculator

open Text (Span Word)
open String (utf8Len)

namespace Text

/-- A text without the blanks at its ends. -/
def trim (text : String) : String :=
  String.ofList ((text.toList.dropWhile isBlank).rdropWhile isBlank)

/-- A text between blanks that does not begin or end with one. -/
structure Core (gap middle after : List Char) : Prop where
  before : ∀ c ∈ gap, isBlank c = true
  behind : ∀ c ∈ after, isBlank c = true
  some : middle ≠ []
  first : ∀ c ∈ middle.head?, isBlank c = false
  last : ∀ c ∈ middle.getLast?, isBlank c = false

theorem Core.trim {text : String} {gap middle after : List Char} (h : Core gap middle after)
    (whole : text.toList = gap ++ middle ++ after) : (trim text).toList = middle := by
  have front : text.toList.dropWhile isBlank = middle ++ after := by
    rw [whole, List.append_assoc, List.dropWhile_append_of_pos h.before]
    obtain ⟨c, rest, rfl⟩ := List.exists_cons_of_ne_nil h.some
    have letter := h.first c rfl
    simp [letter]
  have back : (middle ++ after).rdropWhile isBlank = middle := by
    rw [List.rdropWhile, List.reverse_append,
      List.dropWhile_append_of_pos fun c mem => h.behind c (List.mem_reverse.mp mem)]
    obtain ⟨rest, c, rfl⟩ := (List.eq_nil_or_concat' middle).resolve_left h.some
    have letter := h.last c (by simp)
    simp [letter]
  rw [Text.trim, front, back, String.toList_ofList]

theorem Core.word {gap chars after : List Char} (before : ∀ c ∈ gap, isBlank c = true)
    (some : chars ≠ []) (solid : ∀ c ∈ chars, isBlank c = false)
    (behind : ∀ c ∈ after, isBlank c = true) : Core gap chars after where
  before := before
  behind := behind
  some := some
  first := fun c first => solid c (List.mem_of_mem_head? first)
  last := fun c last => solid c (List.mem_of_mem_getLast? last)

theorem Core.cons {gap chars gap' middle after : List Char} (before : ∀ c ∈ gap, isBlank c = true)
    (some : chars ≠ []) (solid : ∀ c ∈ chars, isBlank c = false) (h : Core gap' middle after) :
    Core gap (chars ++ gap' ++ middle) after where
  before := before
  behind := h.behind
  some := by simp [some]
  first := by
    obtain ⟨c, rest, rfl⟩ := List.exists_cons_of_ne_nil some
    simpa using solid c (List.mem_cons_self ..)
  last := by
    rw [List.getLast?_append_of_ne_nil _ h.some]
    exact h.last

/-- The extent of words that stand in a text is all but the blanks at its ends. -/
theorem Laid.extent {offset : Nat} {cs : List Char} {w : Word} {ws : List Word}
    (laid : Laid offset cs (w :: ws)) : ∃ gap middle after, cs = gap ++ middle ++ after ∧
      Core gap middle after ∧ Command.extent w ws =
        ⟨offset + utf8Len gap, offset + utf8Len gap + utf8Len middle⟩ := by
  induction ws generalizing offset cs w with
  | nil =>
    cases laid with
    | @word _ gap chars rest _ blank some solid ends more =>
      cases more with
      | gap behind => exact ⟨gap, chars, rest, rfl, .word blank some solid behind, rfl⟩
  | cons v ws ih =>
    cases laid with
    | @word _ gap chars rest _ blank some solid ends more =>
      obtain ⟨gap', middle, after, rfl, core, extent⟩ := ih more
      refine ⟨gap, chars ++ gap' ++ middle, after, by simp, .cons blank some solid core, ?_⟩
      have stop := congrArg Span.stop extent
      simp only [Command.extent] at stop
      simp only [Command.extent, List.getLastD_cons, stop, String.utf8Len_append, Nat.add_assoc]

/-- The extent of the words of a line shows the line without the blanks at its ends. -/
theorem Word.shows_extent {line : String} {w : Word} {ws : List Word}
    (words : Word.split line = w :: ws) :
    (trim line).toList ≠ [] ∧ (Command.extent w ws).Shows line (trim line) := by
  have laid : Laid 0 line.toList (w :: ws) := laid_iff.mpr words.symm
  obtain ⟨gap, middle, after, whole, core, extent⟩ := laid.extent
  have trimmed : (trim line).toList = middle := core.trim whole
  rw [Nat.zero_add] at extent
  rw [Span.shows_iff, trimmed]
  exact ⟨core.some, gap, after, whole, extent⟩

/-- A span marks something in a text, and starts and stops between characters of it. -/
structure Span.Inside (s : Span) (text : String) : Prop where
  forward : s.start < s.stop
  within : s.stop ≤ text.utf8ByteSize
  start : String.Pos.Raw.IsValid text ⟨s.start⟩
  stop : String.Pos.Raw.IsValid text ⟨s.stop⟩

theorem Span.Shows.inside {s : Span} {text shown : String} (h : s.Shows text shown)
    (some : shown.toList ≠ []) : s.Inside text := by
  obtain ⟨before, after, whole, span⟩ := Span.shows_iff.mp h
  constructor
  · have length : utf8Len shown.toList ≠ 0 := fun none => some (String.utf8Len_eq_zero.mp none)
    rw [span]
    dsimp only
    omega
  · exact h.stop.le_rawEndPos
  · exact h.start
  · exact h.stop

theorem Span.Inside.start_add_length {s : Span} {text : String} (h : s.Inside text) :
    s.start + s.length = s.stop := by
  have forward := h.forward
  rw [Span.length]
  omega

end Text

open Text (normalize trim)

/-- What a rejection of a line says, and what it points at: the second of three words, the third of
them, or the line as a whole. -/
inductive Rejection.Marks (line : String) (r : Rejection) : Prop where
  | operation (first second third : Word)
    (words : Word.split (normalize line) = [first, second, third])
    (message : r.message = "Unknown operation `" ++ second.text ++ "`")
    (span : r.span = second.span)
    (shown : r.span.Shows (normalize line) second.text)
  | literal (first second third : Word)
    (words : Word.split (normalize line) = [first, second, third])
    (digits : ∀ c ∈ third.text.toList, c.isDigit = true)
    (message : r.message = "Integer literal `" ++ third.text ++ "` is out of range: " ++
      "number too large to fit in target type")
    (span : r.span = third.span)
    (shown : r.span.Shows (normalize line) third.text)
  | whole (message : r.message = "Invalid input")
    (shown : r.span.Shows (normalize line) (trim (normalize line)))

namespace Command

theorem ofDefinition_eq_error {r k t : Word} {cause : Malformed}
    (refused : ofDefinition r k t = .error cause) :
    cause = .unknownOperation k ∨
      (cause = .invalidLiteral t .tooLarge ∧ Operand.ofWord t.text = .error .tooLarge) := by
  unfold ofDefinition at refused
  cases known : Operation.ofKeyword? k.text with
  | none =>
    simp only [known, Except.error.injEq] at refused
    exact .inl refused.symm
  | some op =>
    cases operand : Operand.ofWord t.text with
    | ok x => simp [known, operand] at refused
    | error reason =>
      cases reason
      simp only [known, operand, Except.error.injEq] at refused
      exact .inr ⟨refused.symm, rfl⟩

theorem ofWords_eq_error {ws : List Word} {cause : Malformed} (refused : ofWords ws = .error cause) :
    (∃ r k t, ws = [r, k, t] ∧ ofDefinition r k t = .error cause) ∨
    ∃ w rest, ws = w :: rest ∧ cause = .unrecognized (extent w rest) := by
  match ws with
  | [] =>
    rw [ofWords] at refused
    cases refused
  | [w] =>
    rw [ofWords] at refused
    split at refused
    · cases refused
    · exact .inr ⟨w, [], rfl, (Except.error.inj refused).symm⟩
  | [w, r] =>
    rw [ofWords] at refused
    split at refused
    · cases refused
    · exact .inr ⟨w, [r], rfl, (Except.error.inj refused).symm⟩
  | [r, k, t] => exact .inl ⟨r, k, t, rfl, refused⟩
  | r :: k :: t :: w :: ws => exact .inr ⟨r, k :: t :: w :: ws, rfl, (Except.error.inj refused).symm⟩

theorem marks_of_parse {line : String} {cause : Malformed} (refused : parse line = .error cause) :
    cause.rejection.Marks line ∧ cause.rejection.span.Inside (normalize line) := by
  have shown := (Text.Divides.split (normalize line)).shown
  have solid := solid_split line
  rcases ofWords_eq_error refused with ⟨r, k, t, words, refused⟩ | ⟨w, rest, words, rfl⟩
  · rw [words] at shown solid
    rcases ofDefinition_eq_error refused with rfl | ⟨rfl, large⟩
    · have second : k.span.Shows (normalize line) k.text := shown k (by simp)
      exact ⟨.operation r k t words rfl rfl second, second.inside (solid k (by simp))⟩
    · have third : t.span.Shows (normalize line) t.text := shown t (by simp)
      have some := solid t (by simp)
      have digits := ((Operand.ofWord_eq_error_iff some).mp large).1
      have message := Malformed.message_invalidLiteral t .tooLarge
      exact ⟨.literal r k t words digits message rfl third, third.inside some⟩
  · obtain ⟨some, whole⟩ := Word.shows_extent words
    exact ⟨.whole rfl whole, whole.inside some⟩

end Command

namespace Session

theorem report_of_told {place line : String} {recorded : Array Diagnostic} {e : Engine Int64}
    {report : Report}
    (mem : .report report ∈ told place line recorded (e.execute line).1) :
    ∃ cause, Command.parse line = .error cause ∧
      report = .ofRejection place (normalize line) cause.rejection := by
  have quiet : Notice.report report ∉
      recorded.map (Notice.text <| Notice.diagnosticText place ·) := by simp
  cases outcome : (e.execute line).1 with
  | ok outcome' =>
    rw [outcome] at mem
    exact absurd mem quiet
  | error error =>
    rw [outcome, told] at mem
    have last := (Array.mem_push.mp mem).resolve_left quiet
    rcases Engine.error_of_execute outcome with ⟨cause, parsed, rfl⟩ | ⟨name, _, _, rfl⟩
    · exact ⟨cause, parsed, Notice.report.inj last⟩
    · cases last

/-- A report is about a line of an input that is no command, and shows it as it was read. -/
def Reported (origin : String) (lines : List (Except StreamError String)) (report : Report) : Prop :=
  ∃ line cause number, .ok line ∈ lines ∧ Command.parse line = .error cause ∧
    report = .ofRejection (origin ++ ":" ++ Nat.repr number) (normalize line) cause.rejection

structure Reports (origin : String) (lines : List (Except StreamError String)) (s : Session) :
    Prop where
  named : s.origin = origin
  reported : ∀ report, .report report ∈ s.notices → Reported origin lines report

variable {origin : String} {lines : List (Except StreamError String)}

theorem Reports.feed {s : Session} {line : String} (number : Nat) (among : .ok line ∈ lines)
    (h : Reports origin lines s) : Reports origin lines (s.feed number line).2 := by
  constructor
  · rw [origin_feed, h.named]
  · intro report mem
    rw [feed_eq_heed] at mem
    rcases Array.mem_append.mp mem with earlier | now
    · exact h.reported report earlier
    · obtain ⟨cause, refused, same⟩ := report_of_told now
      rw [h.named] at same
      exact ⟨line, cause, number, among, refused, same⟩

theorem reports_run (number : Nat) (output : Output) :
    Reports origin lines ((start origin output).run number lines).2 := by
  apply run_invariant_of_mem lines fun number line among h => h.feed number among
  constructor
  · rfl
  · simp [start]

/-- Whatever the line, a rejection marks what it is about in the line as it was read: from one
character on up to another, and never nothing. A session shows the line in this form, so the mark
lies within what it shows. -/
theorem reports_mark :
    (∀ line cause, Command.parse line = .error cause →
      cause.rejection.span.Inside (normalize line) ∧
      cause.rejection.span.start + cause.rejection.span.length = cause.rejection.span.stop ∧
      cause.rejection.Marks line) ∧
    ∀ origin output lines report,
      .report report ∈ ((start origin output).run 1 lines).2.notices →
      Reported origin lines report ∧
      Span.Inside ⟨report.offset, report.offset + report.length⟩ report.source := by
  constructor
  · intro line cause refused
    obtain ⟨marks, inside⟩ := Command.marks_of_parse refused
    exact ⟨inside, inside.start_add_length, marks⟩
  · intro origin output lines report mem
    have reported := (reports_run 1 output).reported report mem
    refine ⟨reported, ?_⟩
    obtain ⟨line, cause, number, _, refused, rfl⟩ := reported
    obtain ⟨_, inside⟩ := Command.marks_of_parse refused
    rw [Report.ofRejection, inside.start_add_length]
    exact inside

/-- The first letter takes two bytes as it is written and three as it is read. -/
def lengthened : String := "\u0130 divide 2"

def division : Malformed := .unknownOperation ⟨"divide".toList, ⟨4, 10⟩⟩

theorem reports_mark_lengthened :
    Command.parse lengthened = .error division ∧ division.rejection.Marks lengthened ∧
    .report (.ofRejection "stdin:1" "i\u0307 divide 2" division.rejection) ∈
      ((fresh "stdin" none).run 1 [.ok lengthened]).2.notices ∧
    Span.Inside ⟨4, 10⟩ "i\u0307 divide 2" := by
  have refused : Command.parse lengthened = .error division := by decide +kernel
  have told : .report (.ofRejection "stdin:1" "i\u0307 divide 2" division.rejection) ∈
      ((fresh "stdin" none).run 1 [.ok lengthened]).2.notices := by decide +kernel
  obtain ⟨_, _, marks⟩ := reports_mark.1 lengthened division refused
  obtain ⟨_, inside⟩ := reports_mark.2 _ _ _ _ told
  exact ⟨refused, marks, told, inside⟩

end Session

end RegisterCalculator
