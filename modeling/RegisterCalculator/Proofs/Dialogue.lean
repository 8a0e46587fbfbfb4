import RegisterCalculator.Proofs.Lines
import RegisterCalculator.Proofs.Recording
import RegisterCalculator.Session

namespace RegisterCalculator

namespace Session

/-- What an outcome puts on the output. -/
def reply : Except LineError (Outcome Int64) → String
  | .ok (.printed value) => Text.Decimal.ofInt value.toInt ++ "\n"
  | _ => ""

/-- What is told about a line from a place: the diagnostics that it recorded, then its error. -/
def told (place line : String) (recorded : Array Diagnostic) :
    Except LineError (Outcome Int64) → Array Notice
  | .ok _ => recorded.map (.text <| Notice.diagnosticText place ·)
  | .error e =>
    (recorded.map (.text <| Notice.diagnosticText place ·)).push (errorNotice place line e)

/-- Whether a run ends at a line: it cannot be read, or it asks to quit. -/
def halts : Except StreamError String → Bool
  | .error _ => true
  | .ok line =>
    match Command.parse line with
    | .ok .quit => true
    | _ => false

theorem halts_ok_iff {line : String} :
    halts (.ok line) = true ↔ Command.parse line = .ok .quit := by
  simp only [halts]
  split
  · next quits => simp [quits]
  · next other => simpa using other

theorem execute_of_halts {line : String} (last : halts (.ok line) = true) (e : Engine Int64) :
    e.execute line = (.ok .quit, e) := by
  simp only [Engine.execute, halts_ok_iff.mp last, Engine.perform]

theorem halts_of_quit {line : String} {e : Engine Int64} (quits : (e.execute line).1 = .ok .quit) :
    halts (.ok line) = true := by
  cases e.execution line with
  | quit parsed _ => exact halts_ok_iff.mpr parsed
  | malformed _ _ outcome => simp [outcome] at quits
  | missing _ _ _ outcome => simp [outcome] at quits
  | printed _ _ _ _ outcome => simp [outcome] at quits
  | defined _ _ _ outcome => simp [outcome] at quits
  | blank _ outcome => simp [outcome] at quits

/-- What a line makes of a session whose output has room for the reply. -/
def heed (number : Nat) (line : String) (s : Session) : Session :=
  let next := s.engine.execute line
  { s with
    engine := next.2.drain.2
    output := s.output.add (reply next.1)
    notices :=
      s.notices ++ told (s.origin ++ ":" ++ Nat.repr number) line next.2.diagnostics next.1 }

theorem feed_eq_heed (number : Nat) (line : String) (s : Session) :
    (s.feed number line).2 =
      { s.heed number line with output := (s.feed number line).2.output } := by
  simp only [feed, heed, Engine.drain]
  cases (s.engine.execute line).1 with
  | error e => simp [answer, told]
  | ok outcome =>
    cases outcome with
    | printed value =>
      simp only [answer]
      split <;> simp [told]
    | _ => simp [answer, told]

theorem engine_heed (number : Nat) (line : String) (s : Session) :
    (s.heed number line).engine = (s.engine.execute line).2.drain.2 := by
  simp only [heed]

theorem origin_heed (number : Nat) (line : String) (s : Session) :
    (s.heed number line).origin = s.origin := by
  simp only [heed]

theorem answer_of_output {s t : Session} (output : t.output = s.output)
    (place place' line line' : String) (outcome : Except LineError (Outcome Int64)) :
    (answer place' line' t outcome).1 = (answer place line s outcome).1 ∧
    (answer place' line' t outcome).2.output = (answer place line s outcome).2.output := by
  cases outcome with
  | error e => exact ⟨rfl, output⟩
  | ok outcome =>
    cases outcome with
    | printed value =>
      simp only [answer, output]
      split <;> exact ⟨rfl, rfl⟩
    | _ => exact ⟨rfl, output⟩

/-- Whether a session goes on after a line, and what it writes, depends on the answer of its engine
alone. -/
theorem feed_of_answer {s t : Session} {line line' : String}
    (same : (t.engine.execute line').1 = (s.engine.execute line).1) (output : t.output = s.output)
    (number number' : Nat) :
    (t.feed number' line').1 = (s.feed number line).1 ∧
    (t.feed number' line').2.output = (s.feed number line).2.output := by
  simp only [feed, same]
  apply answer_of_output
  exact output

theorem engine_feed (number : Nat) (line : String) (s : Session) :
    (s.feed number line).2.engine = (s.engine.execute line).2.drain.2 := by
  rw [feed_eq_heed]
  simp only [engine_heed]

theorem drained_heed (number : Nat) (line : String) (s : Session) :
    (s.heed number line).engine.diagnostics = #[] := by
  rw [engine_heed, Engine.drain]

theorem drained_feed (number : Nat) (line : String) (s : Session) :
    (s.feed number line).2.engine.diagnostics = #[] := by
  rw [engine_feed, Engine.drain]

theorem origin_feed (number : Nat) (line : String) (s : Session) :
    (s.feed number line).2.origin = s.origin := by
  rw [feed_eq_heed]
  simp only [origin_heed]

theorem output_heed (number : Nat) (line : String) (s : Session) :
    (s.heed number line).output = s.output.add (reply (s.engine.execute line).1) := by
  simp only [heed]

theorem feed_of_halts {s : Session} (drained : s.engine.diagnostics = #[]) {line : String}
    (last : halts (.ok line) = true) (number : Nat) :
    s.feed number line = (.ended (.ok ()), s) := by
  obtain ⟨origin, ⟨store, diagnostics⟩, output, notices⟩ := s
  obtain rfl : diagnostics = #[] := drained
  simp [feed, execute_of_halts last, Engine.drain, answer]

theorem feed_of_fits {s : Session} {line : String} (other : (s.engine.execute line).1 ≠ .ok .quit)
    (fits : ∀ value, (s.engine.execute line).1 = .ok (.printed value) →
      s.output.write (reply (.ok (.printed value))) =
        (.ok (), s.output.add (reply (.ok (.printed value))))) (number : Nat) :
    s.feed number line = (.more, s.heed number line) := by
  simp only [feed, heed, Engine.drain]
  cases outcome : (s.engine.execute line).1 with
  | error e => simp [answer, reply, told, Output.add_empty]
  | ok outcome' =>
    cases outcome' with
    | quit => exact absurd outcome other
    | defined => simp [answer, reply, told, Output.add_empty]
    | skipped => simp [answer, reply, told, Output.add_empty]
    | printed value =>
      have written := fits value outcome
      rw [reply] at written
      simp [answer, reply, told, written]

theorem feed_of_room {s : Session} {number : Nat} {line : String}
    (goesOn : halts (.ok line) = false) (room : (s.heed number line).output.Room) :
    s.feed number line = (.more, s.heed number line) := by
  apply feed_of_fits
  · intro quits
    rw [halts_of_quit quits] at goesOn
    nomatch goesOn
  · intro value outcome
    rw [output_heed, outcome] at room
    exact Output.write_of_room room

/-- What lines make of a session whose output has room for all replies. -/
def heedAll (number : Nat) : List String → Session → Session
  | [], s => s
  | line :: rest, s => heedAll (number + 1) rest (s.heed number line)

/-- All that lines put on the output when they are carried out one after the other. -/
def printout (lines : List String) (e : Engine Int64) : String :=
  String.join ((Engine.executeAll lines e).map (reply ·.1))

theorem printout_cons (line : String) (lines : List String) (e : Engine Int64) :
    printout (line :: lines) e =
      reply (e.execute line).1 ++ printout lines (e.execute line).2 := by
  simp [printout, Engine.executeAll]

theorem printout_drain (lines : List String) (e : Engine Int64) :
    printout lines e.drain.2 = printout lines e := by
  have same := congrArg (List.map reply) (Engine.answers_drain lines e)
  simp only [List.map_map, Function.comp_def] at same
  simp only [printout, same]

theorem store_heedAll (number : Nat) (lines : List String) (s : Session) :
    (s.heedAll number lines).engine.store = (s.engine.follow lines).store := by
  induction lines generalizing s number with
  | nil => rfl
  | cons line rest ih => rw [heedAll, ih, engine_heed, Engine.follow_drain, Engine.follow_cons]

theorem output_heedAll (number : Nat) (lines : List String) (s : Session) :
    (s.heedAll number lines).output = s.output.add (printout lines s.engine) := by
  induction lines generalizing s number with
  | nil => exact (Output.add_empty _).symm
  | cons line rest ih =>
    rw [heedAll, ih, engine_heed, printout_drain, output_heed, printout_cons, Output.add_append]

theorem origin_heedAll (number : Nat) (lines : List String) (s : Session) :
    (s.heedAll number lines).origin = s.origin := by
  induction lines generalizing s number with
  | nil => rfl
  | cons line rest ih => rw [heedAll, ih, origin_heed]

theorem drained_heedAll {s : Session} (drained : s.engine.diagnostics = #[]) (number : Nat)
    (lines : List String) : (s.heedAll number lines).engine.diagnostics = #[] := by
  induction lines generalizing s number with
  | nil => exact drained
  | cons line rest ih => exact ih (drained_heed number line s) (number + 1)

/-- A run heeds lines for as long as something holds that has each of them heeded. -/
theorem run_of_heeds {P : Nat → List String → Session → Prop}
    (heeds : ∀ {number line front s}, P number (line :: front) s →
      s.feed number line = (.more, s.heed number line) ∧
      P (number + 1) front (s.heed number line))
    {number : Nat} {front : List String} {s : Session} (h : P number front s)
    (rest : List (Except StreamError String)) :
    s.run number (front.map .ok ++ rest) =
      (s.heedAll number front).run (number + front.length) rest := by
  induction front generalizing s number with
  | nil => rfl
  | cons line front ih =>
    obtain ⟨heeded, ahead⟩ := heeds h
    have count : number + (line :: front).length = number + 1 + front.length := by
      rw [List.length_cons]
      omega
    rw [List.map_cons, List.cons_append, run, heeded, count]
    exact ih ahead

structure Fit (number : Nat) (front : List String) (s : Session) : Prop where
  goesOn : ∀ line ∈ front, halts (.ok line) = false
  room : (s.heedAll number front).output.Room

theorem Fit.heeds {number : Nat} {line : String} {front : List String} {s : Session}
    (fit : Fit number (line :: front) s) :
    s.feed number line = (.more, s.heed number line) ∧
    Fit (number + 1) front (s.heed number line) := by
  obtain ⟨first, goesOn⟩ := List.forall_mem_cons.mp fit.goesOn
  have room := fit.room
  rw [heedAll] at room
  have fits : (s.heed number line).output.Room := by
    rw [output_heedAll] at room
    exact room.of_add
  exact ⟨feed_of_room first fits, goesOn, room⟩

theorem run_heedAll {s : Session} {number : Nat} {front : List String}
    (goesOn : ∀ line ∈ front, halts (.ok line) = false)
    (room : (s.heedAll number front).output.Room) (rest : List (Except StreamError String)) :
    s.run number (front.map .ok ++ rest) =
      (s.heedAll number front).run (number + front.length) rest :=
  run_of_heeds (P := Fit) Fit.heeds ⟨goesOn, room⟩ rest

/-- The lines before the first that halts. -/
def script (lines : List (Except StreamError String)) : List String :=
  (lines.takeWhile (!halts ·)).filterMap Except.toOption

/-- How a run ends: only a line that cannot be read makes it fail. -/
def ending (lines : List (Except StreamError String)) : Except StreamError Unit :=
  match lines.find? halts with
  | some (.error e) => .error e
  | _ => .ok ()

theorem script_of_halts {first : Except StreamError String} (last : halts first = true)
    (rest : List (Except StreamError String)) : script (first :: rest) = [] := by
  simp [script, last]

theorem script_cons {line : String} (goesOn : halts (.ok line) = false)
    (rest : List (Except StreamError String)) :
    script (.ok line :: rest) = line :: script rest := by
  simp [script, goesOn, Except.toOption]

theorem ending_of_quit {line : String} (last : halts (.ok line) = true)
    (rest : List (Except StreamError String)) : ending (.ok line :: rest) = .ok () := by
  simp [ending, last]

theorem ending_cons {line : String} (goesOn : halts (.ok line) = false)
    (rest : List (Except StreamError String)) : ending (.ok line :: rest) = ending rest := by
  simp [ending, goesOn]

/-- Lines are a script and what follows it, which is either nothing or starts with a line that
halts. -/
theorem eq_script_append (lines : List (Except StreamError String)) :
    (∀ line ∈ script lines, halts (.ok line) = false) ∧
    ∃ rest, lines = (script lines).map .ok ++ rest ∧ script rest = [] ∧
      ending rest = ending lines := by
  induction lines with
  | nil => exact ⟨by simp [script], [], rfl, rfl, rfl⟩
  | cons first lines ih =>
    cases last : halts first with
    | true =>
      have empty := script_of_halts last lines
      rw [empty]
      exact ⟨by simp, first :: lines, rfl, empty, rfl⟩
    | false =>
      cases first with
      | error e => nomatch last
      | ok line =>
        obtain ⟨goesOn, rest, whole, empty, ends⟩ := ih
        rw [script_cons last, ending_cons last]
        refine ⟨List.forall_mem_cons.mpr ⟨last, goesOn⟩, rest, ?_, empty, ends⟩
        rw [List.map_cons, List.cons_append, ← whole]

theorem run_of_script_eq_nil {s : Session} (drained : s.engine.diagnostics = #[]) (number : Nat)
    {lines : List (Except StreamError String)} (empty : script lines = []) :
    s.run number lines = (ending lines, s) := by
  cases lines with
  | nil => rfl
  | cons first rest =>
    cases first with
    | error e => rfl
    | ok line =>
      cases last : halts (.ok line) with
      | true => rw [run, feed_of_halts drained last, ending_of_quit last]
      | false =>
        rw [script_cons last] at empty
        nomatch empty

/-- With room for all replies, a run heeds the lines before the first that halts. -/
theorem run_of_room {s : Session} (drained : s.engine.diagnostics = #[]) {number : Nat}
    {lines : List (Except StreamError String)}
    (room : (s.heedAll number (script lines)).output.Room) :
    s.run number lines = (ending lines, s.heedAll number (script lines)) := by
  obtain ⟨goesOn, rest, whole, empty, ends⟩ := eq_script_append lines
  -- The line that halts takes diagnostics too, and finds none.
  have still := drained_heedAll drained number (script lines)
  calc s.run number lines
      = s.run number ((script lines).map .ok ++ rest) := by rw [← whole]
    _ = (s.heedAll number (script lines)).run (number + (script lines).length) rest :=
        run_heedAll goesOn room rest
    _ = (ending rest, s.heedAll number (script lines)) := run_of_script_eq_nil still _ empty
    _ = (ending lines, s.heedAll number (script lines)) := by rw [ends]

/-- Nothing behind a line that halts is looked at. -/
theorem run_append_of_halts {front : List (Except StreamError String)}
    (halted : ∃ line ∈ front, halts line = true) (s : Session) (number : Nat)
    (rest : List (Except StreamError String)) :
    s.run number (front ++ rest) = s.run number front := by
  induction front generalizing s number with
  | nil =>
    obtain ⟨_, nowhere, _⟩ := halted
    nomatch nowhere
  | cons first front ih =>
    cases first with
    | error e => rfl
    | ok line =>
      rw [List.cons_append, run, run]
      rcases fed : s.feed number line with ⟨_ | result, s'⟩
      · -- A line that halts ends the session, so the one that does stands further on.
        have later : ∃ line ∈ front, halts line = true := by
          obtain ⟨line', within, last⟩ := halted
          rcases List.mem_cons.mp within with rfl | within
          · have ended : (s.feed number line).1 = .ended (.ok ()) := by
              simp only [feed, execute_of_halts last, answer]
            rw [fed] at ended
            nomatch ended
          · exact ⟨line', within, last⟩
        exact ih later s' (number + 1)
      · rfl

theorem run_cons_related {R : Session → Session → Prop} {n n' : Nat} {s t : Session}
    {line line' : String} {rest rest' : List (Except StreamError String)}
    (progress : (t.feed n' line').1 = (s.feed n line).1)
    (after : R (s.feed n line).2 (t.feed n' line').2)
    (later : ((t.feed n' line').2.run (n' + 1) rest').1 = ((s.feed n line).2.run (n + 1) rest).1 ∧
      R ((s.feed n line).2.run (n + 1) rest).2 ((t.feed n' line').2.run (n' + 1) rest').2) :
    (t.run n' (.ok line' :: rest')).1 = (s.run n (.ok line :: rest)).1 ∧
    R (s.run n (.ok line :: rest)).2 (t.run n' (.ok line' :: rest')).2 := by
  rw [run, run]
  rcases fed : s.feed n line with ⟨_ | result, s'⟩
  · rcases fed' : t.feed n' line' with ⟨_ | result', t'⟩
    · rw [fed, fed'] at later
      exact later
    · simp [fed, fed'] at progress
  · rcases fed' : t.feed n' line' with ⟨_ | result', t'⟩
    · simp [fed, fed'] at progress
    · rw [fed, fed'] at after progress
      cases progress
      exact ⟨rfl, after⟩

/-- What two sessions have in common before a line and again after it, they still have when a run
ends, and they end it alike. -/
theorem run_related {R : Session → Session → Prop}
    (feeds : ∀ {s t}, R s t → ∀ number line,
      (t.feed number line).1 = (s.feed number line).1 ∧
      R (s.feed number line).2 (t.feed number line).2)
    {s t : Session} (related : R s t) (number : Nat) (lines : List (Except StreamError String)) :
    (t.run number lines).1 = (s.run number lines).1 ∧
    R (s.run number lines).2 (t.run number lines).2 := by
  induction lines generalizing s t number with
  | nil => exact ⟨rfl, related⟩
  | cons first rest ih =>
    cases first with
    | error e => exact ⟨rfl, related⟩
    | ok line =>
      obtain ⟨progress, after⟩ := feeds related number line
      exact run_cons_related progress after (ih after (number + 1))

theorem run_invariant_of_mem {P : Session → Prop} (lines : List (Except StreamError String))
    (feeds : ∀ {s} number line, .ok line ∈ lines → P s → P (s.feed number line).2) {s : Session}
    (h : P s) (number : Nat) : P (s.run number lines).2 := by
  induction lines generalizing s number with
  | nil => exact h
  | cons first rest ih =>
    cases first with
    | error e => exact h
    | ok line =>
      have after : P (s.feed number line).2 := feeds number line (List.mem_cons_self ..) h
      rw [run]
      rcases fed : s.feed number line with ⟨_ | result, s'⟩
      · rw [fed] at after
        exact ih (fun number line mem => feeds number line (List.mem_cons_of_mem _ mem)) after _
      · rw [fed] at after
        exact after

theorem run_invariant {P : Session → Prop}
    (feeds : ∀ {s}, P s → ∀ number line, P (s.feed number line).2) {s : Session} (h : P s)
    (number : Nat) (lines : List (Except StreamError String)) : P (s.run number lines).2 :=
  run_invariant_of_mem (P := P) lines (fun number line _ h => feeds h number line) h number

def fresh (origin : String) (limit : Option Nat) : Session := start origin (Output.empty limit)

def hold (origin : String) (limit : Option Nat) (bytes : List UInt8) :
    Except StreamError Unit × Session :=
  (fresh origin limit).run 1 (Stream.lines bytes)

theorem room_heedAll (origin : String) (number : Nat) (lines : List String) :
    ((fresh origin none).heedAll number lines).output.Room := by
  rw [output_heedAll]
  exact Output.room_of_unlimited rfl

theorem run_fresh (origin : String) (number : Nat) (lines : List (Except StreamError String)) :
    (fresh origin none).run number lines =
      (ending lines, (fresh origin none).heedAll number (script lines)) :=
  run_of_room rfl (room_heedAll origin number (script lines))

theorem ending_lines (bytes : List UInt8) :
    ((Stream.lines bytes).find? halts = some (.error .invalidUtf8) ∧
      ending (Stream.lines bytes) = .error .invalidUtf8) ∨
    ((Stream.lines bytes).find? halts ≠ some (.error .invalidUtf8) ∧
      ending (Stream.lines bytes) = .ok ()) := by
  unfold ending
  split
  · next e found =>
    obtain rfl := Stream.eq_invalidUtf8_of_mem_lines (List.mem_of_find?_eq_some found)
    exact .inl ⟨found, rfl⟩
  · next other => exact .inr ⟨other _, rfl⟩

/-- A session carries out the lines of its input one after the other, up to the first that cannot be
read or asks to quit, and writes what they print. It fails exactly if that line cannot be read.
Nothing that stands behind that line in the input makes any difference. -/
theorem hold_follows_lines (origin : String) (bytes : List UInt8) :
    (hold origin none bytes).2.engine.store =
      (Engine.empty.follow (script (Stream.lines bytes))).store ∧
    (hold origin none bytes).2.output.written =
      (printout (script (Stream.lines bytes)) Engine.empty).toUTF8 ∧
    ((hold origin none bytes).1 = .error .invalidUtf8 ↔
      (Stream.lines bytes).find? halts = some (.error .invalidUtf8)) ∧
    ((hold origin none bytes).1 = .ok () ↔
      (Stream.lines bytes).find? halts ≠ some (.error .invalidUtf8)) ∧
    (∀ tail, bytes.getLast? = some 10 → (∃ line ∈ Stream.lines bytes, halts line = true) →
      hold origin none (bytes ++ tail) = hold origin none bytes) ∧
    ∀ cut, Stream.CutsLines cut ↔ cut = Stream.lines := by
  have whole : hold origin none bytes = _ := run_fresh origin 1 (Stream.lines bytes)
  refine ⟨?_, ?_, ?_, ?_, ?_, fun cut => Stream.cutsLines_iff⟩
  · rw [whole]
    exact store_heedAll 1 _ _
  · rw [whole, output_heedAll]
    exact ByteArray.empty_append
  · rw [whole]
    rcases ending_lines bytes with ⟨found, ends⟩ | ⟨found, ends⟩ <;> simp [found, ends]
  · rw [whole]
    rcases ending_lines bytes with ⟨found, ends⟩ | ⟨found, ends⟩ <;> simp [found, ends]
  · intro tail ends halted
    rw [hold, hold, Stream.lines_append ends, run_append_of_halts halted]

def closed : List UInt8 := "a add 2\nprint a\nQuit\n".toUTF8.data.toList

theorem hold_follows_lines_closed :
    closed.getLast? = some 10 ∧ (∃ line ∈ Stream.lines closed, halts line = true) ∧
    hold "stdin" none (closed ++ [255, 10]) = hold "stdin" none closed ∧
    (hold "stdin" none closed).2.output.written = "2\n".toUTF8 := by
  have ends : closed.getLast? = some 10 := by decide +kernel
  have halted : ∃ line ∈ Stream.lines closed, halts line = true := by decide +kernel
  have printed : printout (script (Stream.lines closed)) Engine.empty = "2\n" := by decide +kernel
  obtain ⟨_, written, _, _, behind, _⟩ := hold_follows_lines "stdin" closed
  rw [printed] at written
  exact ⟨ends, halted, behind [255, 10] ends halted, written⟩

end Session

end RegisterCalculator
