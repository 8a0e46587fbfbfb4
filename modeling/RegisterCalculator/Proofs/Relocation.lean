import RegisterCalculator.Proofs.Arguments
import RegisterCalculator.Proofs.Transcript

namespace RegisterCalculator

open Text (Unbroken)

/-- What is told about a line with a number, wherever the line comes from. -/
inductive Remark where
  | message (number : Nat) (text : String)
  | rejection (number : Nat) (source : String) (rejection : Rejection)

namespace Remark

def notice (origin : String) : Remark → Notice
  | message number text => .text (origin ++ ":" ++ Nat.repr number ++ ": " ++ text)
  | rejection number source r =>
    .report (Report.ofRejection (origin ++ ":" ++ Nat.repr number) source r)

def ofDiagnostic (number : Nat) (d : Diagnostic) : Remark :=
  message number ("Runtime error while evaluating `" ++ d.register ++ "`: " ++ d.fault.message)

def ofError (number : Nat) (line : String) : LineError → Remark
  | .malformed cause => rejection number (Text.normalize line) cause.rejection
  | .fault cause => message number ("Runtime error: " ++ cause.message)

theorem notice_ofDiagnostic (origin : String) (number : Nat) (d : Diagnostic) :
    (ofDiagnostic number d).notice origin =
      .text (Notice.diagnosticText (origin ++ ":" ++ Nat.repr number) d) := by
  simp only [ofDiagnostic, notice, Notice.diagnosticText, Notice.text.injEq]
  apply String.toList_inj.mp
  simp

theorem notice_ofError (origin : String) (number : Nat) (line : String) (e : LineError) :
    (ofError number line e).notice origin =
      Session.errorNotice (origin ++ ":" ++ Nat.repr number) line e := by
  cases e with
  | malformed cause => rfl
  | fault cause =>
    simp only [ofError, notice, Session.errorNotice, Notice.faultText, Notice.text.injEq]
    apply String.toList_inj.mp
    simp

end Remark

namespace Session

/-- What is told when an engine carries out a line, wherever the line comes from. -/
def remarks (number : Nat) (line : String) (e : Engine Int64) : List Remark :=
  let (outcome, e) := e.execute line
  let complaints := e.diagnostics.toList.map (Remark.ofDiagnostic number)
  match outcome with
  | .ok _ => complaints
  | .error e => complaints ++ [Remark.ofError number line e]

theorem notices_feed (number : Nat) (line : String) (s : Session) :
    (s.feed number line).2.notices.toList =
      s.notices.toList ++ (remarks number line s.engine).map (Remark.notice s.origin) := by
  rw [feed_eq_heed]
  simp only [heed, remarks, Array.toList_append]
  cases (s.engine.execute line).1 <;>
    simp [told, Remark.notice_ofDiagnostic, Remark.notice_ofError, Function.comp_def]

/-- Sessions that differ in where their lines come from at most. -/
structure Relocated (s t : Session) : Prop where
  engine : t.engine = s.engine
  output : t.output = s.output
  remarks : ∃ remarks : List Remark,
    s.notices.toList = remarks.map (Remark.notice s.origin) ∧
    t.notices.toList = remarks.map (Remark.notice t.origin)

namespace Relocated

variable {s t : Session}

theorem feed (h : Relocated s t) (number : Nat) (line : String) :
    (t.feed number line).1 = (s.feed number line).1 ∧
    Relocated (s.feed number line).2 (t.feed number line).2 := by
  have same : t.engine.execute line = s.engine.execute line := by rw [h.engine]
  obtain ⟨progress, output⟩ := feed_of_answer (congrArg Prod.fst same) h.output number number
  obtain ⟨earlier, told, told'⟩ := h.remarks
  -- What is remarked about the line depends on the engine alone.
  refine ⟨progress, ?_, output, ?_⟩
  · rw [engine_feed, engine_feed, same]
  · refine ⟨earlier ++ Session.remarks number line s.engine, ?_, ?_⟩
    · rw [notices_feed, origin_feed, told, List.map_append]
    · rw [notices_feed, origin_feed, told', h.engine, List.map_append]

theorem run (h : Relocated s t) (number : Nat) (lines : List (Except StreamError String)) :
    (t.run number lines).1 = (s.run number lines).1 ∧
    Relocated (s.run number lines).2 (t.run number lines).2 :=
  run_related (R := Relocated) (fun h number line => h.feed number line) h number lines

end Relocated

theorem origin_run (number : Nat) (lines : List (Except StreamError String)) (s : Session) :
    (s.run number lines).2.origin = s.origin :=
  run_invariant (P := (·.origin = s.origin))
    (fun h number line => (origin_feed number line _).trans h) rfl number lines

theorem eq_outputFull_of_feed {s : Session} {number : Nat} {line : String} {e : StreamError}
    (fails : (s.feed number line).1 = .ended (.error e)) : e = .outputFull := by
  simp only [feed] at fails
  cases outcome : (s.engine.execute line).1 with
  | error cause => simp [outcome, answer] at fails
  | ok result =>
    cases result with
    | printed value =>
      cases written : (s.output.write (Text.Decimal.ofInt value.toInt ++ "\n")).1 with
      | ok => simp [outcome, answer, written] at fails
      | error e' =>
        obtain rfl : e' = e := by simpa [outcome, answer, written] using fails
        exact Output.eq_outputFull_of_write written
    | _ => simp [outcome, answer] at fails

/-- A run fails because a line cannot be read or the output is full. -/
theorem error_of_run {s : Session} {number : Nat} {lines : List (Except StreamError String)}
    {e : StreamError} (fails : (s.run number lines).1 = .error e) :
    .error e ∈ lines ∨ e = .outputFull := by
  induction lines generalizing s number with
  | nil => nomatch fails
  | cons first rest ih =>
    cases first with
    | error e' =>
      obtain rfl : e' = e := Except.error.inj fails
      exact .inl (List.mem_cons_self ..)
    | ok line =>
      rw [run] at fails
      rcases fed : s.feed number line with ⟨_ | result, s'⟩
      · rw [fed] at fails
        exact (ih fails).imp_left (List.mem_cons_of_mem _)
      · rw [fed] at fails
        subst fails
        exact .inr (eq_outputFull_of_feed (congrArg Prod.fst fed))

/-- Whatever has been told shows as one item, and so will what is told about the next line. -/
structure Itemized (s : Session) : Prop where
  origin : Unbroken s.origin
  drained : s.engine.diagnostics = #[]
  words : s.engine.store.Speaks Text.IsWord Instruction.NamesWord
  items : ∀ notice ∈ s.notices.toList, notice.items = [notice]

namespace Itemized

theorem start {origin : String} (plain : Unbroken origin) (output : Output) :
    Itemized (Session.start origin output) :=
  ⟨plain, rfl, Store.speaks_empty, by simp [Session.start]⟩

theorem feed {s : Session} (h : Itemized s) (number : Nat) (line : String) :
    Itemized (s.feed number line).2 := by
  constructor
  · rw [origin_feed]
    exact h.origin
  · exact drained_feed number line s
  · rw [engine_feed, Engine.store_drain]
    exact Engine.words_execute h.words line
  · intro notice mem
    rw [feed_eq_heed] at mem
    dsimp only at mem
    rw [notices_heed h.drained, List.mem_append] at mem
    rcases mem with earlier | now
    · exact h.items notice earlier
    · have place := (h.origin.append (by decide : Unbroken ":")).append (Text.unbroken_repr number)
      exact items_of_mem_account place h.words now

theorem run {s : Session} (h : Itemized s) (number : Nat)
    (lines : List (Except StreamError String)) : Itemized (s.run number lines).2 :=
  run_invariant (P := Itemized) (fun h number line => h.feed number line) h number lines

end Itemized

end Session

theorem Notice.flatMap_items {notices : List Notice}
    (whole : ∀ notice ∈ notices, notice.items = [notice]) : notices.flatMap items = notices := by
  induction notices with
  | nil => rfl
  | cons notice notices ih =>
    obtain ⟨first, whole⟩ := List.forall_mem_cons.mp whole
    rw [List.flatMap_cons, first, ih whole, List.singleton_append]

namespace CommandLine

def Completion.items (c : Completion) : List Notice := c.notices.toList.flatMap Notice.items

theorem items_accessFailure {path reason : String} (plain : Unbroken path)
    (whole : Unbroken reason) : (accessFailure path reason).items = [accessFailure path reason] :=
  Notice.items_text (((Unbroken.append (by decide) plain).append (by decide)).append whole)

theorem items_stdinFailure {reason : String} (whole : Unbroken reason) :
    (stdinFailure reason).items = [stdinFailure reason] :=
  Notice.items_text (Unbroken.append (by decide) whole)

def failure? : Except StreamError Unit → Option StreamError
  | .ok () => none
  | .error e => some e

/-- What is told of a session: remarks about lines from an origin, and at the end why a stream
failed if it did. -/
def report (origin : String) (failure : String → Notice) (remarks : List Remark)
    (ending : Option StreamError) : List Notice :=
  remarks.map (Remark.notice origin) ++ (ending.map fun e => failure e.message).toList

theorem converse_eq (origin : String) (failure : String → Notice)
    (lines : List (Except StreamError String)) (output : Output) :
    let x := (Session.start origin output).run 1 lines
    let y := converse origin failure lines output
    y.status = (failure? x.1).elim 0 (fun _ => 1) ∧ y.output = x.2.output ∧
    y.notices.toList =
      x.2.notices.toList ++ ((failure? x.1).map fun e => failure e.message).toList := by
  unfold converse
  rcases (Session.start origin output).run 1 lines with ⟨_ | _, s⟩ <;> simp [failure?]

section Converse

variable {origin origin' : String} {failure failure' : String → Notice}
  {lines : List (Except StreamError String)} (output : Output)
  (readable : ∀ e, .error e ∈ lines → Unbroken e.message)
include readable

theorem items_converse (plain : Unbroken origin)
    (whole : ∀ {reason}, Unbroken reason → (failure reason).items = [failure reason]) :
    (converse origin failure lines output).items =
      ((Session.start origin output).run 1 lines).2.notices.toList ++
        ((failure? ((Session.start origin output).run 1 lines).1).map
          fun e => failure e.message).toList := by
  obtain ⟨_, _, told⟩ := converse_eq origin failure lines output
  have items := ((Session.Itemized.start plain output).run 1 lines).items
  rw [Completion.items, told, List.flatMap_append, Notice.flatMap_items items]
  cases result : ((Session.start origin output).run 1 lines).1 with
  | ok => rfl
  | error e =>
    have reason : Unbroken e.message := by
      rcases Session.error_of_run result with unread | rfl
      · exact readable e unread
      · decide
    simp [failure?, whole reason]

/-- A session about the same lines takes the same course wherever they come from. -/
theorem converse_relocated (plain : Unbroken origin) (plain' : Unbroken origin')
    (whole : ∀ {reason}, Unbroken reason → (failure reason).items = [failure reason])
    (whole' : ∀ {reason}, Unbroken reason → (failure' reason).items = [failure' reason]) :
    let x := converse origin failure lines output
    let y := converse origin' failure' lines output
    y.status = x.status ∧ y.output = x.output ∧
    ∃ remarks ending, x.items = report origin failure remarks ending ∧
      y.items = report origin' failure' remarks ending := by
  have began : (Session.start origin output).Relocated (Session.start origin' output) :=
    ⟨rfl, rfl, [], rfl, rfl⟩
  obtain ⟨result, after⟩ := began.run 1 lines
  obtain ⟨remarks, told, told'⟩ := after.remarks
  obtain ⟨status, written, _⟩ := converse_eq origin failure lines output
  obtain ⟨status', written', _⟩ := converse_eq origin' failure' lines output
  refine ⟨?_, ?_, remarks, failure? ((Session.start origin output).run 1 lines).1, ?_, ?_⟩
  · rw [status, status', result]
  · rw [written, written', after.output]
  · rw [items_converse output readable plain whole, told, Session.origin_run]
    rfl
  · rw [items_converse output readable plain' whole', told', Session.origin_run, result]
    rfl

end Converse

theorem run_of_file {path : String} (operand : path.toList.head? ≠ some '-') {files : FileSystem}
    {content : List UInt8} (opens : files.access path = .ok (.ofBytes content)) (stdin : Input)
    (output : Output) :
    run [path] files stdin output =
      converse path (accessFailure path) (Stream.lines content) output := by
  simp only [run, Invocation.ofArgs_operand operand, opens]
  rfl

/-- Lines come to the same end from a file as from standard input, up to the origin of the lines and
the wording of a failure. Whatever stands on standard input makes no difference to the run on the
file. -/
theorem run_file_stdin {path : String} (plain : '\n' ∉ path.toList)
    (operand : path.toList.head? ≠ some '-') {files : FileSystem} {content : List UInt8}
    (opens : files.access path = .ok (.ofBytes content)) (stdin : Input) (output : Output) :
    let x := run [path] files stdin output
    let y := run [] files (.ofBytes content) output
    y.status = x.status ∧ y.output = x.output ∧
    (∃ remarks ending, x.items = report path (accessFailure path) remarks ending ∧
      y.items = report "stdin" stdinFailure remarks ending) ∧
    ∀ stdin', run [path] files stdin' output = x := by
  have fromFile : ∀ stdin, run [path] files stdin output = _ := fun stdin =>
    run_of_file operand opens stdin output
  have fromStdin : run [] files (.ofBytes content) output =
      converse "stdin" stdinFailure (Stream.lines content) output := rfl
  have readable : ∀ e, .error e ∈ Stream.lines content → Unbroken e.message := by
    intro e unread
    obtain rfl := Stream.eq_invalidUtf8_of_mem_lines unread
    decide
  intro x y
  have same : y.status = x.status ∧ y.output = x.output ∧ ∃ remarks ending,
      x.items = report path (accessFailure path) remarks ending ∧
      y.items = report "stdin" stdinFailure remarks ending := by
    rw [show x = _ from fromFile stdin, show y = _ from fromStdin]
    exact converse_relocated output readable plain (by decide) (items_accessFailure plain)
      items_stdinFailure
  obtain ⟨status, written, told⟩ := same
  exact ⟨status, written, told, fun stdin' => (fromFile stdin').trans (fromFile stdin).symm⟩

def torn : List UInt8 := "print ghost\n".toUTF8.data.toList ++ [255]

def desk : FileTree := FileTree.empty.insert "calc.txt" (.file torn)

theorem run_file_stdin_torn :
    let x := run ["calc.txt"] desk (.ofBytes []) (Output.empty none)
    let y := run [] desk (.ofBytes torn) (Output.empty none)
    y.status = x.status ∧ y.output = x.output ∧
    x.items = [.text "calc.txt:1: Runtime error: The register `ghost` could not be found",
      .text "Failed to access calc.txt: stream did not contain valid UTF-8"] ∧
    y.items = [.text "stdin:1: Runtime error: The register `ghost` could not be found",
      .text "Failed to process standard input: stream did not contain valid UTF-8"] := by
  have opens : (desk : FileSystem).access "calc.txt" = .ok (.ofBytes torn) := by
    have found : desk.resolve "calc.txt" = .ok (.file torn) := by decide +kernel
    exact congrArg (Except.map FileTree.input) found
  obtain ⟨status, written, _⟩ :=
    run_file_stdin (by decide) (by decide) opens (.ofBytes []) (Output.empty none)
  exact ⟨status, written, by decide +kernel, by decide +kernel⟩

end CommandLine

end RegisterCalculator
