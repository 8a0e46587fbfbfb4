import RegisterCalculator.Proofs.Dialogue
import RegisterCalculator.Proofs.Rearrangement

namespace RegisterCalculator

open Command (Quiet definitionsOf definition?)

/-- Scripts that differ only in how definitions are interleaved between prints: each register is
defined by the same instructions in the same order, before the same line. -/
inductive Interleaved :
    List (Except StreamError String) → List (Except StreamError String) → Prop
  | done : Interleaved [] []
  | keep {lines lines'} (line : Except StreamError String) (rest : Interleaved lines lines') :
    Interleaved (line :: lines) (line :: lines')
  | block {lines lines'} {front front' : List String}
    (quiet : ∀ line ∈ front, Quiet line) (quiet' : ∀ line ∈ front', Quiet line)
    (same : ∀ name, definitionsOf name front' = definitionsOf name front)
    (rest : Interleaved lines lines') :
    Interleaved (front.map .ok ++ lines) (front'.map .ok ++ lines')

def DefineApart (first second : String) : Prop :=
  ∃ d d', definition? first = some d ∧ definition? second = some d' ∧ d.1 ≠ d'.1

theorem quiet_of_definition? {line : String} {d : String × Instruction}
    (defines : definition? line = some d) : Quiet line := by
  unfold definition? at defines
  split at defines
  · next parsed => simp [Quiet, parsed]
  · nomatch defines

theorem DefineApart.quiet {first second : String} (apart : DefineApart first second) :
    ∀ line ∈ [first, second], Quiet line := by
  obtain ⟨d, d', here, there, _⟩ := apart
  simpa using ⟨quiet_of_definition? here, quiet_of_definition? there⟩

theorem DefineApart.symm {first second : String} (apart : DefineApart first second) :
    DefineApart second first := by
  obtain ⟨d, d', here, there, other⟩ := apart
  exact ⟨d', d, there, here, other.symm⟩

theorem DefineApart.definitionsOf {first second : String} (apart : DefineApart first second)
    (name : String) :
    definitionsOf name [second, first] = definitionsOf name [first, second] := by
  obtain ⟨d, d', here, there, other⟩ := apart
  by_cases same : d.1 = name
  · have other' : d'.1 ≠ name := same ▸ other.symm
    simp [Command.definitionsOf, here, there, same, other']
  · by_cases same' : d'.1 = name <;> simp [Command.definitionsOf, here, there, same, same']

namespace Session

structure Rearranged (s t : Session) : Prop where
  engine : s.engine.Rearranged t.engine
  output : t.output = s.output

namespace Rearranged

variable {s t : Session}

theorem feed (h : Rearranged s t) (number number' : Nat) (line : String) :
    (t.feed number' line).1 = (s.feed number line).1 ∧
    Rearranged (s.feed number line).2 (t.feed number' line).2 := by
  obtain ⟨answer, after⟩ := h.engine.execute line
  obtain ⟨progress, output⟩ := feed_of_answer answer h.output number number'
  refine ⟨progress, ?_, output⟩
  rw [engine_feed, engine_feed]
  exact after.drain

end Rearranged

/-- Sessions that differ in the places of registers at most. -/
structure Alike (s t : Session) : Prop extends Rearranged s t where
  origin : t.origin = s.origin
  notices : t.notices = s.notices

namespace Alike

variable {s t : Session}

theorem feed (h : Alike s t) (number : Nat) (line : String) :
    (t.feed number line).1 = (s.feed number line).1 ∧
    Alike (s.feed number line).2 (t.feed number line).2 := by
  obtain ⟨progress, after⟩ := h.toRearranged.feed number number line
  obtain ⟨answer, ahead⟩ := h.engine.execute line
  have origin : (t.feed number line).2.origin = (s.feed number line).2.origin := by
    rw [origin_feed, origin_feed, h.origin]
  have notices : (t.feed number line).2.notices = (s.feed number line).2.notices := by
    rw [feed_eq_heed, feed_eq_heed number line s]
    simp only [heed, h.origin, h.notices, answer, ahead.diagnostics]
  exact ⟨progress, after, origin, notices⟩

theorem run (h : Alike s t) (number : Nat) (lines : List (Except StreamError String)) :
    (t.run number lines).1 = (s.run number lines).1 ∧
    Alike (s.run number lines).2 (t.run number lines).2 :=
  run_related (R := Alike) (fun h number line => h.feed number line) h number lines

end Alike

theorem feed_of_quiet {line : String} (quiet : Quiet line) (number : Nat) (s : Session) :
    s.feed number line = (.more, s.heed number line) := by
  obtain ⟨noQuit, noPrint⟩ := Engine.answer_of_quiet quiet s.engine
  exact feed_of_fits noQuit (fun value printed => absurd printed (noPrint value)) number

theorem run_of_quiet {front : List String} (quiet : ∀ line ∈ front, Quiet line) (number : Nat)
    (s : Session) (rest : List (Except StreamError String)) :
    s.run number (front.map .ok ++ rest) =
      (s.heedAll number front).run (number + front.length) rest := by
  have heeds : ∀ {number : Nat} {first front} {s : Session},
      (∀ line ∈ first :: front, Quiet line) →
      s.feed number first = (.more, s.heed number first) ∧ ∀ line ∈ front, Quiet line := by
    intro number first front s quiet
    obtain ⟨here, quiet⟩ := List.forall_mem_cons.mp quiet
    exact ⟨feed_of_quiet here number s, quiet⟩
  exact run_of_heeds (P := fun _ front _ => ∀ line ∈ front, Quiet line) heeds quiet rest

theorem printout_of_quiet {lines : List String} (quiet : ∀ line ∈ lines, Quiet line)
    (e : Engine Int64) : printout lines e = "" := by
  induction lines generalizing e with
  | nil => rfl
  | cons line lines ih =>
    obtain ⟨first, quiet⟩ := List.forall_mem_cons.mp quiet
    have silent : reply (e.execute line).1 = "" := by
      obtain ⟨_, noPrint⟩ := Engine.answer_of_quiet first e
      unfold reply
      split
      · next value printed => exact absurd printed (noPrint value)
      · rfl
    rw [printout_cons, silent, ih quiet, String.append_empty]

theorem Rearranged.heedAll {s t : Session} (h : Rearranged s t)
    (drained : s.engine.diagnostics = #[]) {front front' : List String}
    (quiet : ∀ line ∈ front, Quiet line) (quiet' : ∀ line ∈ front', Quiet line)
    (same : ∀ name, definitionsOf name front' = definitionsOf name front) (number number' : Nat) :
    Rearranged (s.heedAll number front) (t.heedAll number' front') := by
  have drained' : t.engine.diagnostics = #[] := h.engine.diagnostics.trans drained
  refine ⟨⟨?_, ?_⟩, ?_⟩
  · rw [store_heedAll, store_heedAll]
    exact (h.engine.follow quiet quiet' same).store
  · rw [drained_heedAll drained, drained_heedAll drained']
  · rw [output_heedAll, output_heedAll, printout_of_quiet quiet, printout_of_quiet quiet',
      Output.add_empty, Output.add_empty, h.output]

theorem Rearranged.run_interleaved {s t : Session} (h : Rearranged s t)
    (drained : s.engine.diagnostics = #[]) {lines lines' : List (Except StreamError String)}
    (interleaved : Interleaved lines lines') (number number' : Nat) :
    (t.run number' lines').1 = (s.run number lines).1 ∧
    Rearranged (s.run number lines).2 (t.run number' lines').2 := by
  induction interleaved generalizing s t number number' with
  | done => exact ⟨rfl, h⟩
  | keep first _ ih =>
    cases first with
    | error e => exact ⟨rfl, h⟩
    | ok line =>
      obtain ⟨progress, after⟩ := h.feed number number' line
      have taken := drained_feed number line s
      exact run_cons_related progress after (ih after taken _ _)
  | @block lines lines' front front' quiet quiet' same _ ih =>
    rw [run_of_quiet quiet, run_of_quiet quiet']
    exact ih (h.heedAll drained quiet quiet' same number number')
      (drained_heedAll drained number front) _ _

theorem notices_of_definition {s : Session} (drained : s.engine.diagnostics = #[]) {line : String}
    {d : String × Instruction} (defines : definition? line = some d) (number : Nat) :
    (s.heed number line).notices = s.notices := by
  simp [heed, Engine.execute_of_definition defines, Engine.push, told, drained]

/-- Lines that define different registers leave the same in either order, and tell nothing. -/
theorem Alike.swap {s : Session} (drained : s.engine.diagnostics = #[]) {first second : String}
    (apart : DefineApart first second) (number : Nat) :
    Alike (s.heedAll number [first, second]) (s.heedAll number [second, first]) := by
  have silent : ∀ {first second}, DefineApart first second →
      (s.heedAll number [first, second]).notices = s.notices := by
    rintro first second ⟨d, d', here, there, _⟩
    rw [heedAll, heedAll, heedAll, notices_of_definition (drained_heed number first s) there,
      notices_of_definition drained here]
  have same : Rearranged s s := ⟨.refl _, rfl⟩
  constructor
  · exact same.heedAll drained apart.quiet apart.symm.quiet apart.definitionsOf number number
  · rw [origin_heedAll, origin_heedAll]
  · rw [silent apart, silent apart.symm]

/-- However a run comes to two such lines, it takes them in either order. -/
theorem Alike.run_swap {s : Session} (drained : s.engine.diagnostics = #[]) {first second : String}
    (apart : DefineApart first second) (number : Nat)
    (before after : List (Except StreamError String)) :
    (s.run number (before ++ .ok second :: .ok first :: after)).1 =
      (s.run number (before ++ .ok first :: .ok second :: after)).1 ∧
    Alike (s.run number (before ++ .ok first :: .ok second :: after)).2
      (s.run number (before ++ .ok second :: .ok first :: after)).2 := by
  have refl : ∀ s, Alike s s := fun s => ⟨⟨.refl _, rfl⟩, rfl, rfl⟩
  induction before generalizing s number with
  | nil =>
    have forth := run_of_quiet apart.quiet number s after
    have back := run_of_quiet apart.symm.quiet number s after
    rw [List.map_cons, List.map_singleton, List.cons_append, List.singleton_append] at forth back
    rw [List.nil_append, List.nil_append, forth, back]
    exact (swap drained apart number).run _ after
  | cons first' before ih =>
    -- A run that ends before it comes to the two lines is the same run.
    cases first' with
    | error e => exact ⟨rfl, refl s⟩
    | ok line => exact run_cons_related rfl (refl _) (ih (drained_feed number line s) (number + 1))

/-- Definitions of different registers commute, so it makes no difference to what a session writes
and tells how they are interleaved between prints. The registers are the same up to their order. -/
theorem hold_interleaved (origin : String) (limit : Option Nat) (bytes bytes' : List UInt8) :
    (∀ before first second after, DefineApart first second →
      Stream.lines bytes = before ++ .ok first :: .ok second :: after →
      Stream.lines bytes' = before ++ .ok second :: .ok first :: after →
      (hold origin limit bytes').1 = (hold origin limit bytes).1 ∧
      (hold origin limit bytes').2.output = (hold origin limit bytes).2.output ∧
      (hold origin limit bytes').2.notices = (hold origin limit bytes).2.notices ∧
      (hold origin limit bytes').2.engine.store.registers.toList.Perm
        (hold origin limit bytes).2.engine.store.registers.toList) ∧
    (Interleaved (Stream.lines bytes) (Stream.lines bytes') →
      (hold origin limit bytes').1 = (hold origin limit bytes).1 ∧
      (hold origin limit bytes').2.output = (hold origin limit bytes).2.output ∧
      (hold origin limit bytes').2.engine.store.registers.toList.Perm
        (hold origin limit bytes).2.engine.store.registers.toList) := by
  constructor
  · intro before first second after apart lines lines'
    obtain ⟨result, alike⟩ :=
      Alike.run_swap (s := fresh origin limit) rfl apart 1 before after
    rw [← lines, ← lines'] at result alike
    exact ⟨result, alike.output, alike.notices, alike.engine.store.perm⟩
  · intro interleaved
    have same : Rearranged (fresh origin limit) (fresh origin limit) := ⟨.refl _, rfl⟩
    obtain ⟨result, after⟩ := same.run_interleaved rfl interleaved 1 1
    exact ⟨result, after.output, after.engine.store.perm⟩

def crossed : List UInt8 := "b add a\na add 2\na multiply b\nprint a\n".toUTF8.data.toList

def swapped : List UInt8 := "a add 2\nb add a\na multiply b\nprint a\n".toUTF8.data.toList

def sorted : List UInt8 := "a add 2\na multiply b\nb add a\nprint a\n".toUTF8.data.toList

theorem hold_interleaved_crossed :
    DefineApart "b add a" "a add 2" ∧ Interleaved (Stream.lines crossed) (Stream.lines sorted) ∧
    (hold "stdin" none crossed).2.output.written = "4\n".toUTF8 ∧
    (hold "stdin" none swapped).2.output = (hold "stdin" none crossed).2.output ∧
    (hold "stdin" none sorted).2.output = (hold "stdin" none crossed).2.output := by
  have ofB : definition? "b add a" = some ("b", ⟨.add, .register "a"⟩) := by decide +kernel
  have ofA : definition? "a add 2" = some ("a", ⟨.add, .literal 2⟩) := by decide +kernel
  have ofA' : definition? "a multiply b" = some ("a", ⟨.multiply, .register "b"⟩) := by
    decide +kernel
  have apart : DefineApart "b add a" "a add 2" := ⟨_, _, ofB, ofA, by decide⟩
  have quietB := quiet_of_definition? ofB
  have quietA := quiet_of_definition? ofA
  have quietA' := quiet_of_definition? ofA'
  have lines : Stream.lines crossed =
      ["b add a", "a add 2", "a multiply b"].map .ok ++ [.ok "print a"] := by decide +kernel
  have lines' : Stream.lines sorted =
      ["a add 2", "a multiply b", "b add a"].map .ok ++ [.ok "print a"] := by decide +kernel
  have interleaved : Interleaved (Stream.lines crossed) (Stream.lines sorted) := by
    rw [lines, lines']
    refine .block ?_ ?_ ?_ (.keep _ .done)
    · simp [quietB, quietA, quietA']
    · simp [quietB, quietA, quietA']
    · intro name
      by_cases isA : "a" = name
      · subst isA
        simp [definitionsOf, ofB, ofA, ofA']
      · simp [definitionsOf, ofB, ofA, ofA', List.filter_cons, isA]
  obtain ⟨swap, _⟩ := hold_interleaved "stdin" none crossed swapped
  obtain ⟨_, written, _⟩ := swap [] "b add a" "a add 2" [.ok "a multiply b", .ok "print a"] apart
    (by decide +kernel) (by decide +kernel)
  obtain ⟨_, merge⟩ := hold_interleaved "stdin" none crossed sorted
  obtain ⟨_, written', _⟩ := merge interleaved
  have printed : printout (script (Stream.lines crossed)) Engine.empty = "4\n" := by decide +kernel
  have whole : hold "stdin" none crossed = _ := run_fresh "stdin" 1 (Stream.lines crossed)
  refine ⟨apart, interleaved, ?_, written, written'⟩
  rw [whole, output_heedAll, ← printed]
  exact ByteArray.empty_append

end Session

end RegisterCalculator
