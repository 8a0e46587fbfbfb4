import RegisterCalculator.Proofs.Dialogue
import RegisterCalculator.Proofs.Vocabulary

namespace RegisterCalculator

namespace Text

theorem pieces_of_not_mem {separator : Char} {cs : List Char} (absent : separator ∉ cs) :
    pieces separator cs = [cs] := by
  induction cs with
  | nil => rfl
  | cons c cs ih =>
    obtain ⟨other, absent⟩ := List.ne_and_not_mem_of_not_mem_cons absent
    simp only [pieces, ih absent, if_neg (Ne.symm other)]

/-- A text that shows as one line. -/
def Unbroken (text : String) : Prop := '\n' ∉ text.toList

instance (text : String) : Decidable (Unbroken text) := inferInstanceAs (Decidable (_ ∉ _))

theorem Unbroken.append {first last : String} (h : Unbroken first) (k : Unbroken last) :
    Unbroken (first ++ last) := by
  rw [Unbroken, String.toList_append, List.mem_append]
  exact not_or.mpr ⟨h, k⟩

theorem IsWord.unbroken {word : String} (h : IsWord word) : Unbroken word := by
  intro mem
  have letter := h.2 '\n' mem
  revert letter
  decide

theorem unbroken_repr (n : Nat) : Unbroken (Nat.repr n) := by
  intro mem
  have digit := Decimal.isDigit_of_mem_repr mem
  revert digit
  decide

end Text

open Text (Unbroken)

theorem Notice.items_text {t : String} (whole : Unbroken t) : (text t).items = [text t] := by
  rw [items, Text.pieces_of_not_mem whole, List.map_singleton, String.ofList_toList]

theorem Notice.faultText_registerNotFound (place register : String) :
    faultText place (.registerNotFound register) =
      place ++ ": Runtime error: The register `" ++ register ++ "` could not be found" := by
  unfold faultText Fault.message
  apply String.toList_inj.mp
  simp

theorem Fault.unbroken_message {name : String} (word : Text.IsWord name) :
    Unbroken (registerNotFound name).message := by
  unfold message
  exact .append (.append (by decide) word.unbroken) (by decide)

namespace Session

/-- What is told about a line from a place when an engine carries it out: a message for each
diagnostic that it records, in their order, and then a report if the line is refused, or a message
if it prints a register that does not exist. -/
def account (place line : String) (e : Engine Int64) : List Notice :=
  (e.recorded line).map (fun d => .text (place ++ ": Runtime error while evaluating `" ++
    d.register ++ "`: " ++ d.fault.message)) ++
  match Command.parse line with
  | .error cause =>
    [.report {
      message := cause.rejection.message
      label := cause.rejection.label
      offset := cause.rejection.span.start
      length := cause.rejection.span.length
      help := cause.rejection.help
      origin := place
      source := Text.normalize line }]
  | .ok (.print register) =>
    if e.store.find? register = none then
      [.text (place ++ ": Runtime error: The register `" ++ register ++ "` could not be found")]
    else []
  | .ok _ => []

/-- What is told about lines that are carried out one after the other. Each is told about under its
own number. -/
def transcript (origin : String) : Nat → List String → Engine Int64 → List Notice
  | _, [], _ => []
  | number, line :: rest, e =>
    account (origin ++ ":" ++ Nat.repr number) line e ++
      transcript origin (number + 1) rest (e.execute line).2

theorem told_eq_account (place line : String) (e : Engine Int64) :
    (told place line (e.recorded line).toArray (e.execute line).1).toList =
      account place line e := by
  cases e.execution line with
  | malformed cause parsed outcome =>
    simp [account, outcome, parsed, told, errorNotice, Report.ofRejection, Notice.diagnosticText]
  | missing register parsed absent outcome =>
    simp [account, outcome, parsed, absent, told, errorNotice, Notice.faultText_registerNotFound,
      Notice.diagnosticText]
  | printed register id parsed found outcome =>
    simp [account, outcome, parsed, found, told, Notice.diagnosticText]
  | defined register i parsed outcome =>
    simp [account, outcome, parsed, told, Notice.diagnosticText]
  | quit parsed outcome => simp [account, outcome, parsed, told, Notice.diagnosticText]
  | blank parsed outcome => simp [account, outcome, parsed, told, Notice.diagnosticText]

theorem account_drain (place line : String) (e : Engine Int64) :
    account place line e.drain.2 = account place line e := by
  rw [account, account, Engine.recorded_drain, Engine.drain]

theorem transcript_drain (origin : String) (number : Nat) (lines : List String)
    (e : Engine Int64) :
    transcript origin number lines e.drain.2 = transcript origin number lines e := by
  induction lines generalizing e number with
  | nil => rfl
  | cons line rest ih =>
    rw [transcript, transcript, account_drain, ← ih _ (e.drain.2.execute line).2,
      Engine.drain_execute, ih]

theorem notices_heed {s : Session} (drained : s.engine.diagnostics = #[]) (number : Nat)
    (line : String) :
    (s.heed number line).notices.toList =
      s.notices.toList ++ account (s.origin ++ ":" ++ Nat.repr number) line s.engine := by
  rw [← told_eq_account, Engine.recorded_of_drained drained]
  simp only [heed, Array.toList_append, Array.toArray_toList]

/-- Diagnostics are taken after every line, so each comes under the number of the line that recorded
it. -/
theorem transcript_heedAll {s : Session} (drained : s.engine.diagnostics = #[]) (number : Nat)
    (lines : List String) :
    (s.heedAll number lines).notices.toList =
      s.notices.toList ++ transcript s.origin number lines s.engine := by
  induction lines generalizing s number with
  | nil => simp [heedAll, transcript]
  | cons line rest ih =>
    rw [heedAll, ih (drained_heed number line s), notices_heed drained, origin_heed, engine_heed,
      transcript_drain, transcript, List.append_assoc]

/-- However a run ends, nothing that was recorded is left behind. -/
theorem drained_run {s : Session} (drained : s.engine.diagnostics = #[]) (number : Nat)
    (lines : List (Except StreamError String)) :
    (s.run number lines).2.engine.diagnostics = #[] :=
  run_invariant (P := (·.engine.diagnostics = #[]))
    (fun _ number line => drained_feed number line _) drained number lines

/-- Neither the names of registers nor operands can break what is told into two. -/
theorem items_of_mem_account {place : String} (plain : Unbroken place) {e : Engine Int64}
    (words : e.store.Speaks Text.IsWord Instruction.NamesWord) {line : String} {notice : Notice}
    (mem : notice ∈ account place line e) : notice.items = [notice] := by
  rcases List.mem_append.mp mem with mem | mem
  · obtain ⟨d, recorded, rfl⟩ := List.mem_map.mp mem
    obtain ⟨named, i, name, phrase, operand, fault⟩ := Engine.speaks_recorded words recorded
    have lead := (plain.append (by decide : Unbroken ": Runtime error while evaluating `")).append
      named.unbroken
    apply Notice.items_text
    rw [fault]
    exact (lead.append (by decide)).append (Fault.unbroken_message (phrase name operand))
  · cases parsed : Command.parse line with
    | error cause =>
      rw [parsed] at mem
      obtain rfl := List.mem_singleton.mp mem
      rfl
    | ok c =>
      rw [parsed] at mem
      cases c with
      | print register =>
        have word : Text.IsWord register :=
          Command.isWord_of_mem_names parsed (List.mem_singleton_self register)
        have lead := (plain.append (by decide : Unbroken ": Runtime error: The register `")).append
          word.unbroken
        obtain ⟨_, rfl⟩ : e.store.find? register = none ∧ notice = .text _ := by
          simpa using mem
        exact Notice.items_text (lead.append (by decide))
      | _ => simp at mem

theorem items_of_mem_transcript {origin : String} (plain : Unbroken origin) {number : Nat}
    {lines : List String} {e : Engine Int64}
    (words : e.store.Speaks Text.IsWord Instruction.NamesWord) {notice : Notice}
    (mem : notice ∈ transcript origin number lines e) : notice.items = [notice] := by
  induction lines generalizing e number with
  | nil => simp [transcript] at mem
  | cons line rest ih =>
    rcases List.mem_append.mp mem with mem | mem
    · have place : Unbroken (origin ++ ":" ++ Nat.repr number) :=
        (plain.append (by decide)).append (Text.unbroken_repr number)
      exact items_of_mem_account place words mem
    · exact ih (Engine.words_execute words line) mem

/-- Every problem of a session is told once, under the number of the line that has it, in the order
of the lines, as a single item. However the session ends, no diagnostic has been left untold. -/
theorem hold_tells {origin : String} (plain : '\n' ∉ origin.toList) (bytes : List UInt8) :
    (hold origin none bytes).2.notices.toList =
      transcript origin 1 (script (Stream.lines bytes)) Engine.empty ∧
    (∀ notice ∈ (hold origin none bytes).2.notices, notice.items = [notice]) ∧
    ∀ limit, (hold origin limit bytes).2.engine.diagnostics = #[] := by
  have whole : hold origin none bytes = _ := run_fresh origin 1 (Stream.lines bytes)
  have told : (hold origin none bytes).2.notices.toList =
      transcript origin 1 (script (Stream.lines bytes)) Engine.empty := by
    rw [whole]
    exact transcript_heedAll rfl 1 _
  refine ⟨told, ?_, fun limit => drained_run rfl 1 _⟩
  intro notice mem
  rw [← Array.mem_toList_iff, told] at mem
  exact items_of_mem_transcript plain Store.speaks_empty mem

def troubled : List UInt8 :=
  "a add ghost\nprint b\nprint a\na divide 2\n".toUTF8.data.toList

theorem hold_tells_troubled :
    '\n' ∉ "stdin".toList ∧
    (hold "stdin" none troubled).2.notices.toList =
      [ .text "stdin:2: Runtime error: The register `b` could not be found",
        .text ("stdin:3: Runtime error while evaluating `a`: " ++
          "The register `ghost` could not be found"),
        .report ⟨"Unknown operation `divide`", "not an operation", 2, 6,
          some "Supported operations: add, subtract, multiply", "stdin:4", "a divide 2"⟩ ] := by
  have plain : '\n' ∉ "stdin".toList := by decide
  obtain ⟨told, _⟩ := hold_tells plain troubled
  refine ⟨plain, told.trans ?_⟩
  decide +kernel

end Session

end RegisterCalculator
