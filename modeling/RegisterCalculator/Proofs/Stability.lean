import RegisterCalculator.Proofs.LineEnds
import RegisterCalculator.Proofs.Separation

namespace RegisterCalculator

open Text (normalize isLineEnd)

namespace Text

theorem last_trimLineEnd {cs : List Char} : ∀ c ∈ (trimLineEnd cs).getLast?, isLineEnd c = false := by
  intro c last
  have stops := List.head?_dropWhile_not isLineEnd cs.reverse
  rw [trimLineEnd, List.getLast?_reverse] at last
  rw [show (List.dropWhile _ _).head? = _ from last] at stops
  simpa using stops

/-- A text in lowercase ends with a blank only if the text does. -/
theorem last_lowercaseAfter {before cs : List Char} {d : Char}
    (last : d ∈ (lowercaseAfter before cs).getLast?) (blank : isBlank d = true) : d ∈ cs.getLast? := by
  induction cs generalizing before with
  | nil => nomatch last
  | cons c rest ih =>
    cases rest with
    | nil =>
      have mem := mem_of_mem_lowercaseAfter (List.mem_of_mem_getLast? last) blank
      rw [List.mem_singleton.mp mem]
      rfl
    | cons e rest =>
      have more : lowercaseAfter (c :: before) (e :: rest) ≠ [] := lowercaseAfter_ne_nil (by simp)
      rw [lowercaseAfter, List.getLast?_append_of_ne_nil _ more] at last
      rw [List.getLast?_cons_cons]
      exact ih last

theorem last_normalize {line : String} :
    ∀ c ∈ (normalize line).toList.getLast?, isLineEnd c = false := by
  intro c last
  rw [Bool.eq_false_iff]
  intro ends
  rw [normalize, String.toList_ofList] at last
  have before := last_lowercaseAfter last (isBlank_of_isLineEnd ends)
  rw [last_trimLineEnd c before] at ends
  exact absurd ends Bool.false_ne_true

theorem normalize_normalize (line : String) : normalize (normalize line) = normalize line :=
  normalize_of_isLow (fun _ mem => isLow_of_mem_normalize mem) last_normalize

theorem feed_of_mem_normalize {line : String} (mem : '\n' ∈ (normalize line).toList) :
    '\n' ∈ line.toList := by
  have blank : isBlank '\n' = true := by decide
  rw [normalize, String.toList_ofList] at mem
  have kept := mem_of_mem_lowercaseAfter mem blank
  rw [trimLineEnd, List.mem_reverse] at kept
  exact List.mem_reverse.mp ((List.dropWhile_sublist _).subset kept)

end Text

namespace Stream

theorem eq_feed_of_mem_encode {c : Char} (mem : 10 ∈ String.utf8EncodeChar c) : c = '\n' := by
  obtain ⟨i, here, code⟩ := List.getElem_of_mem mem
  obtain rfl := eq_zero_of_getElem_encode code (by decide)
  have feed : String.utf8EncodeChar '\n' = [10] := by decide
  have begins : String.utf8EncodeChar c =
      String.utf8EncodeChar '\n' ++ (String.utf8EncodeChar c).tail := by
    rw [feed, ← code, List.singleton_append, List.getElem_zero_eq_head, List.cons_head_tail]
  -- The first character of the code is `c`, and it is the line feed.
  have first := ByteArray.utf8DecodeChar?_utf8EncodeChar_append (b := .empty) (c := c)
  rw [ByteArray.append_empty, begins, List.toByteArray_append,
    ByteArray.utf8DecodeChar?_utf8EncodeChar_append] at first
  exact (Option.some.inj first).symm

theorem feed_mem_iff {bytes : List UInt8} {text : String} (decoded : decode bytes = .ok text) :
    10 ∈ bytes ↔ '\n' ∈ text.toList := by
  rw [decode_eq_ok_iff.mp decoded, List.mem_flatMap]
  constructor
  · intro ⟨c, mem, within⟩
    rwa [eq_feed_of_mem_encode within] at mem
  · exact fun mem => ⟨'\n', mem, by decide⟩

/-- A line, or the normal form of its text in its place. -/
def Rewords (line line' : List UInt8) : Prop :=
  line' = line ∨ ∃ text, decode line = .ok text ∧ decode line' = .ok (normalize text)

/-- Bytes in which normal forms stand in the place of some lines. A line feed, or a carriage return
and a line feed, ends a line, and the last line need not be ended. -/
inductive Reworded : List UInt8 → List UInt8 → Prop where
  | unended {line line'} (inside : 10 ∉ line) (rewords : Rewords line line') : Reworded line line'
  | ended {line line' stop rest rest'} (inside : 10 ∉ line) (rewords : Rewords line line')
    (stops : stop = [10] ∨ stop = [13, 10]) (more : Reworded rest rest') :
    Reworded (line ++ stop ++ rest) (line' ++ stop ++ rest')

namespace Rewords

variable {line line' : List UInt8} (h : Rewords line line')

include h

theorem inside (inside : 10 ∉ line) : 10 ∉ line' := by
  rcases h with same | ⟨text, before, after⟩
  · rwa [same]
  · rw [feed_mem_iff before] at inside
    rw [feed_mem_iff after]
    exact fun mem => inside (Text.feed_of_mem_normalize mem)

theorem normalize_eq : (decode line').map normalize = (decode line).map normalize := by
  rcases h with same | ⟨text, before, after⟩
  · rw [same]
  · rw [before, after, Except.map, Except.map, Text.normalize_normalize]

end Rewords

theorem lines_ended {line stop : List UInt8} (inside : 10 ∉ line)
    (stops : stop = [10] ∨ stop = [13, 10]) (rest : List UInt8) :
    ∃ first, lines (line ++ stop ++ rest) = first :: lines rest ∧
      first.map normalize = (decode line).map normalize := by
  rcases stops with rfl | rfl
  · have parts := RawLine.split_terminated inside rest
    refine ⟨decode (RawLine.content ⟨line, true⟩), ?_, RawLine.normalize_content _⟩
    rw [List.append_assoc, List.singleton_append, lines, parts, List.map_cons, lines]
  · have read := cutsLines_lines.returned line rest inside
    refine ⟨decode line, ?_, rfl⟩
    rw [List.append_assoc]
    exact read

end Stream

theorem Engine.executeAll_of_normalize {α : Type} [Accumulator α] {lines lines' : List String}
    (same : List.Forall₂ (fun line line' => line' = line ∨ line' = normalize line) lines lines')
    (e : Engine α) : executeAll lines' e = executeAll lines e := by
  induction same generalizing e with
  | nil => rfl
  | @cons line line' lines lines' here _ ih =>
    have form : normalize line' = normalize line := by
      rcases here with rfl | rfl
      · rfl
      · exact Text.normalize_normalize line
    simp only [executeAll, execute_of_normalize form, ih]

namespace Session

/-- Bytes without a line feed hold no line, or a single one. -/
theorem run_of_nothing {bytes : List UInt8} (inside : 10 ∉ bytes)
    (nothing : (Stream.decode bytes).map normalize = .ok "") {s : Session}
    (drained : s.engine.diagnostics = #[]) (number : Nat) :
    s.run number (Stream.lines bytes) = (.ok (), s) := by
  by_cases some : bytes = []
  · rw [some]
    rfl
  · rw [Stream.cutsLines_lines.unended bytes inside some]
    cases decoded : Stream.decode bytes with
    | error e => simp [decoded, Except.map] at nothing
    | ok line =>
      rw [decoded] at nothing
      have blank : Command.parse line = .ok .blank := by
        rw [Command.parse, Except.ok.inj nothing]
        rfl
      exact run_of_blank drained blank number

/-- A last line whose normal form is empty may come to be no line at all, which makes no
difference. -/
theorem run_unended {line line' : List UInt8} (inside : 10 ∉ line)
    (rewords : Stream.Rewords line line') {s : Session} (drained : s.engine.diagnostics = #[])
    (number : Nat) : s.run number (Stream.lines line') = s.run number (Stream.lines line) := by
  have inside' := rewords.inside inside
  have same := rewords.normalize_eq
  by_cases nothing : (Stream.decode line).map normalize = .ok ""
  · rw [run_of_nothing inside nothing drained,
      run_of_nothing inside' (same.trans nothing) drained]
  · have empty : (Stream.decode []).map normalize = .ok "" := by decide +kernel
    have some : line ≠ [] := by
      intro none
      rw [none] at nothing
      exact nothing empty
    have some' : line' ≠ [] := by
      intro none
      rw [← same, none] at nothing
      exact nothing empty
    rw [Stream.cutsLines_lines.unended line inside some,
      Stream.cutsLines_lines.unended line' inside' some']
    exact run_cons_of_normalize same (fun _ _ _ => rfl) number

theorem run_of_forall {lines lines' : List (Except StreamError String)}
    (same : List.Forall₂ (fun line line' => line' = line ∨ line' = line.map normalize) lines lines')
    (number : Nat) (s : Session) : s.run number lines' = s.run number lines := by
  apply run_of_normalize
  induction same with
  | nil => rfl
  | @cons line line' lines lines' here _ ih =>
    have form : line'.map normalize = line.map normalize := by
      rcases here with rfl | rfl
      · rfl
      · cases line with
        | error e => rfl
        | ok line => simp only [Except.map, Text.normalize_normalize]
    rw [List.map_cons, List.map_cons, form, ih]

theorem run_reworded {bytes bytes' : List UInt8} (h : Stream.Reworded bytes bytes') {s : Session}
    (drained : s.engine.diagnostics = #[]) (number : Nat) :
    s.run number (Stream.lines bytes') = s.run number (Stream.lines bytes) := by
  induction h generalizing s number with
  | unended inside rewords => exact run_unended inside rewords drained number
  | @ended line line' stop rest rest' inside rewords stops more ih =>
    obtain ⟨first, read, form⟩ := Stream.lines_ended inside stops rest
    obtain ⟨first', read', form'⟩ := Stream.lines_ended (rewords.inside inside) stops rest'
    have same : first'.map normalize = first.map normalize := by
      rw [form, form', rewords.normalize_eq]
    rw [read, read']
    exact run_cons_of_normalize same (fun number t drained => ih drained number) number

/-- The normal form of a line is its own normal form and is read as the line is, also where it is
refused. So normal forms may stand in the place of any lines of a script, which then has the same
answers, registers, output and reports. -/
theorem normalize_stable :
    (∀ line, normalize (normalize line) = normalize line ∧
      (∀ c ∈ (normalize line).toList.getLast?, c ≠ '\r' ∧ c ≠ '\n') ∧
      Command.parse (normalize line) = Command.parse line) ∧
    (∀ lines lines' : List String,
      List.Forall₂ (fun line line' => line' = line ∨ line' = normalize line) lines lines' →
      ∀ e : Engine Int64, e.executeAll lines' = e.executeAll lines) ∧
    (∀ lines lines' : List (Except StreamError String),
      List.Forall₂ (fun line line' => line' = line ∨ line' = line.map normalize) lines lines' →
      ∀ number (s : Session), s.run number lines' = s.run number lines) ∧
    ∀ bytes bytes', Stream.Reworded bytes bytes' → ∀ origin limit,
      hold origin limit bytes' = hold origin limit bytes := by
  refine ⟨?_, ?_, ?_, ?_⟩
  · intro line
    have again := Text.normalize_normalize line
    refine ⟨again, ?_, Command.parse_of_normalize again⟩
    intro c last
    have inner := Text.last_normalize c last
    simpa [isLineEnd] using inner
  · exact fun _ _ same e => Engine.executeAll_of_normalize same e
  · exact fun _ _ same number s => run_of_forall same number s
  · exact fun _ _ reworded _ _ => run_reworded reworded rfl 1

def shouted : List UInt8 := "A ADD 2\r\nB DIVIDE 3\r".toUTF8.data.toList

def spoken : List UInt8 := "a add 2\r\nb divide 3".toUTF8.data.toList

def shoutedLines : List (Except StreamError String) :=
  [.ok "A ADD 2", .ok "B DIVIDE 3\r", .error .invalidUtf8]

def spokenLines : List (Except StreamError String) :=
  [.ok "a add 2", .ok "b divide 3", .error .invalidUtf8]

theorem normalize_stable_shouted :
    Stream.Reworded shouted spoken ∧ hold "stdin" none spoken = hold "stdin" none shouted ∧
    (fresh "stdin" none).run 1 spokenLines = (fresh "stdin" none).run 1 shoutedLines ∧
    (Engine.empty : Engine Int64).executeAll ["A ADD 2", "b divide 3"] =
      Engine.empty.executeAll ["A ADD 2", "B DIVIDE 3"] := by
  have first : Stream.Rewords "A ADD 2".toUTF8.data.toList "a add 2".toUTF8.data.toList :=
    .inr ⟨"A ADD 2", by decide +kernel, by decide +kernel⟩
  have last : Stream.Rewords "B DIVIDE 3\r".toUTF8.data.toList "b divide 3".toUTF8.data.toList :=
    .inr ⟨"B DIVIDE 3\r", by decide +kernel, by decide +kernel⟩
  have reworded : Stream.Reworded shouted spoken :=
    .ended (by decide +kernel) first (.inr rfl) (.unended (by decide +kernel) last)
  obtain ⟨_, executes, runs, holds⟩ := normalize_stable
  refine ⟨reworded, holds _ _ reworded "stdin" none, runs _ _ ?_ 1 _, executes _ _ ?_ _⟩
  · refine .cons (.inr ?_) (.cons (.inr ?_) (.cons (.inl rfl) .nil)) <;> decide +kernel
  · refine .cons (.inl rfl) (.cons (.inr ?_) .nil)
    decide +kernel

end Session

end RegisterCalculator
