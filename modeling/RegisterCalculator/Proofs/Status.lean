import RegisterCalculator.Proofs.Limit
import RegisterCalculator.Proofs.Omission
import RegisterCalculator.Proofs.Relocation

namespace RegisterCalculator

namespace Session

theorem feed_of_no_room {s : Session} {number : Nat} {line : String} (room : s.output.Room)
    (full : ¬ (s.heed number line).output.Room) :
    (s.feed number line).1 = .ended (.error .outputFull) := by
  obtain ⟨limit, bounded, past⟩ : ∃ limit, s.output.limit = some limit ∧
      limit < (s.heed number line).output.written.size := by
    simpa [Output.Room, output_heed, Output.add] using full
  have within : s.output.written.size ≤ limit := room limit bounded
  obtain ⟨value, prints⟩ := printed_of_longer (Nat.lt_of_le_of_lt within past)
  have same : s.limited limit = s := by
    rw [limited, ← bounded]
  have ended := feed_of_full prints past
  rw [same] at ended
  rw [ended]

/-- A run ends well if no line that cannot be read comes before one that quits, and all that is
printed fits. -/
theorem run_eq_ok_iff {s : Session} (drained : s.engine.diagnostics = #[]) (room : s.output.Room)
    (number : Nat) (lines : List (Except StreamError String)) :
    (s.run number lines).1 = .ok () ↔
      (∀ e, lines.find? halts ≠ some (.error e)) ∧
      (s.heedAll number (script lines)).output.Room := by
  induction lines generalizing s number with
  | nil => simpa [run, script, heedAll] using room
  | cons first rest ih =>
    cases first with
    | error e => simp [run, halts]
    | ok line =>
      cases last : halts (.ok line) with
      | true =>
        rw [run, feed_of_halts drained last, script_of_halts last]
        simpa [last, heedAll] using room
      | false =>
        rw [script_cons last, heedAll, List.find?_cons, last]
        by_cases fits : (s.heed number line).output.Room
        · rw [run, feed_of_room last fits]
          exact ih (drained_heed number line s) fits (number + 1)
        · have full : ¬ ((s.heed number line).heedAll (number + 1) (script rest)).output.Room := by
            rw [output_heedAll]
            exact fun all => fits all.of_add
          have ended := feed_of_no_room room fits
          rw [run]
          rcases fed : s.feed number line with ⟨_ | result, s'⟩
          · simp [fed] at ended
          · rw [fed] at ended
            cases ended
            simp [full]

theorem goesOn_of_failure {line : String} {e : Engine Int64} {error : LineError}
    (fails : (e.execute line).1 = .error error) : halts (.ok line) = false := by
  cases last : halts (.ok line) with
  | false => rfl
  | true =>
    rw [execute_of_halts last] at fails
    nomatch fails

/-- A line that fails puts nothing on the output and changes nothing of what the others print. -/
theorem printout_of_failure {front rest : List (Except StreamError String)} {line : String}
    {e : Engine Int64} {error : LineError}
    (fails : ((e.follow (script front)).execute line).1 = .error error) :
    printout (script (front ++ .ok line :: rest)) e = printout (script (front ++ rest)) e := by
  induction front generalizing e with
  | nil =>
    have fails : (e.execute line).1 = .error error := fails
    have same : (e.execute line).2 = e := Engine.execute_idle line e (fails ▸ .refused error)
    have silent : reply (.error error) = "" := rfl
    rw [List.nil_append, List.nil_append, script_cons (goesOn_of_failure fails), printout_cons,
      fails, same, silent, String.empty_append]
  | cons first front ih =>
    cases last : halts first with
    | true => rw [List.cons_append, List.cons_append, script_of_halts last, script_of_halts last]
    | false =>
      cases first with
      | error e => nomatch last
      | ok line' =>
        rw [script_cons last, Engine.follow_cons] at fails
        rw [List.cons_append, List.cons_append, script_cons last, script_cons last, printout_cons,
          printout_cons, ih fails]

/-- Sessions with the same registers and the same output. What they have recorded and told may
differ. -/
structure Agrees (s t : Session) : Prop where
  store : t.engine.store = s.engine.store
  output : t.output = s.output

theorem Agrees.feed {s t : Session} (h : Agrees s t) (number : Nat) (line : String) :
    (t.feed number line).1 = (s.feed number line).1 ∧
    Agrees (s.feed number line).2 (t.feed number line).2 := by
  have drained : t.engine.drain.2 = s.engine.drain.2 := by
    rw [Engine.drain, Engine.drain, h.store]
  have answer : ∀ e : Engine Int64, (e.drain.2.execute line).1 = (e.execute line).1 := by
    intro e
    simpa [Engine.executeAll] using Engine.answers_drain [line] e
  have same : (t.engine.execute line).1 = (s.engine.execute line).1 := by
    rw [← answer t.engine, ← answer s.engine, drained]
  obtain ⟨progress, output⟩ := feed_of_answer same h.output number number
  refine ⟨progress, ?_, output⟩
  rw [engine_feed, engine_feed, ← Engine.drain_execute, ← Engine.drain_execute line s.engine,
    drained]

theorem Agrees.run {s t : Session} (h : Agrees s t) (number : Nat)
    (lines : List (Except StreamError String)) : (t.run number lines).1 = (s.run number lines).1 :=
  (run_related (R := Agrees) (fun h => h.feed) h number lines).1

end Session

namespace CommandLine

open Session (halts script printout)

/-- The lines that the program reads, if its arguments ask for a run and its input opens. -/
def lines? (args : List String) (files : FileSystem) (stdin : Input) :
    Option (List (Except StreamError String)) :=
  match Invocation.ofArgs args with
  | .ok (.run none) => some stdin.lines
  | .ok (.run (some path)) =>
    match files.access path with
    | .ok input => some input.lines
    | .error _ => none
  | _ => none

/-- What the program needs to end with the status zero. It is asked for help and its usage fits on
the output; or it reads lines, none that cannot be read comes before one that quits, and what they
print fits. -/
inductive Succeeds (args : List String) (files : FileSystem) (stdin : Input) (output : Output) :
    Prop where
  | help (asked : Invocation.ofArgs args = .ok .help) (room : (output.add (usage ++ "\n")).Room)
  | run (lines : List (Except StreamError String)) (reads : lines? args files stdin = some lines)
    (readable : ∀ e, lines.find? halts ≠ some (.error e))
    (room : (output.add (printout (script lines) Engine.empty)).Room)

section Run

variable {args : List String} {files : FileSystem} {stdin : Input} (output : Output)

theorem run_of_lines {lines : List (Except StreamError String)}
    (reads : lines? args files stdin = some lines) :
    ∃ origin failure, run args files stdin output = converse origin failure lines output := by
  unfold lines? at reads
  unfold run
  split at reads
  · next asked =>
    simp only [asked]
    obtain rfl := Option.some.inj reads
    exact ⟨_, _, rfl⟩
  · next path asked =>
    simp only [asked]
    split at reads
    · next input opens =>
      simp only [opens]
      obtain rfl := Option.some.inj reads
      exact ⟨_, _, rfl⟩
    · nomatch reads
  · nomatch reads

/-- Without lines to read, the program has written its usage or it has failed. -/
theorem run_of_no_lines (none : lines? args files stdin = none) :
    (Invocation.ofArgs args = .ok .help ∧ run args files stdin output = printUsage output) ∨
    (Invocation.ofArgs args ≠ .ok .help ∧ (run args files stdin output).status = 1 ∧
      (run args files stdin output).output = output) := by
  unfold lines? at none
  unfold run
  split at none
  · nomatch none
  · next path asked =>
    simp only [asked]
    split at none
    · nomatch none
    · next e opens => simp [opens]
  · next other other' =>
    cases asked : Invocation.ofArgs args with
    | error e => simp
    | ok invocation =>
      cases invocation with
      | help => simp
      | run input =>
        cases input with
        | none => exact absurd asked other
        | some path => exact absurd asked (other' path)

/-- Nothing behind a line that ends the session is asked for, be it a failure. -/
theorem converse_of_halts {head : List UInt8} (ends : head.getLast? = some 10)
    (halted : ∃ line ∈ Stream.lines head, halts line = true) (origin : String)
    (wording : String → Notice) (rest : List UInt8) (failure : Option StreamError) :
    converse origin wording (Input.lines ⟨head ++ rest, failure⟩) output =
      converse origin wording (Stream.lines head) output := by
  have fed := Session.run_append_of_halts halted (Session.start origin output) 1
  rw [Input.lines_append ends]
  simp only [converse, show Input.lines (.ofBytes head) = Stream.lines head from rfl, fed]

theorem succeeds_iff_of_lines {lines : List (Except StreamError String)}
    (reads : lines? args files stdin = some lines) :
    Succeeds args files stdin output ↔
      (∀ e, lines.find? halts ≠ some (.error e)) ∧
      (output.add (printout (script lines) Engine.empty)).Room := by
  constructor
  · intro succeeds
    cases succeeds with
    | help asked room => simp [lines?, asked] at reads
    | run lines' reads' readable room =>
      obtain rfl := Option.some.inj (reads.symm.trans reads')
      exact ⟨readable, room⟩
  · intro h
    exact .run lines reads h.1 h.2

theorem status_printUsage :
    ((output.add (usage ++ "\n")).Room → (printUsage output).status = 0) ∧
    (¬ (output.add (usage ++ "\n")).Room → (printUsage output).status = 1) := by
  rw [← Output.write_eq_ok_iff]
  unfold printUsage
  rcases output.write (usage ++ "\n") with ⟨_ | _, o⟩ <;> simp

variable {output}

theorem status_converse (room : output.Room) (origin : String) (failure : String → Notice)
    (lines : List (Except StreamError String)) :
    let Good := (∀ e, lines.find? halts ≠ some (.error e)) ∧
      (output.add (printout (script lines) Engine.empty)).Room
    (Good → (converse origin failure lines output).status = 0) ∧
    (¬ Good → (converse origin failure lines output).status = 1) := by
  have result := Session.run_eq_ok_iff (s := .start origin output) rfl room 1 lines
  rw [Session.output_heedAll] at result
  intro Good
  have result : ((Session.start origin output).run 1 lines).1 = .ok () ↔ Good := result
  rw [← result]
  obtain ⟨status, _⟩ := converse_eq origin failure lines output
  rw [status]
  rcases (Session.start origin output).run 1 lines with ⟨_ | _, s⟩ <;> simp [failure?]

theorem status_run (room : output.Room) :
    (Succeeds args files stdin output → (run args files stdin output).status = 0) ∧
    (¬ Succeeds args files stdin output → (run args files stdin output).status = 1) := by
  cases reads : lines? args files stdin with
  | some lines =>
    obtain ⟨origin, failure, ran⟩ := run_of_lines output reads
    rw [ran, succeeds_iff_of_lines output reads]
    exact status_converse room origin failure lines
  | none =>
    rcases run_of_no_lines output reads with ⟨asked, ran⟩ | ⟨other, failed, _⟩
    · have same : Succeeds args files stdin output ↔ (output.add (usage ++ "\n")).Room := by
        constructor
        · intro succeeds
          cases succeeds with
          | help _ room => exact room
          | run lines reads' => simp [reads] at reads'
        · exact .help asked
      rw [ran, same]
      exact status_printUsage output
    · constructor
      · intro succeeds
        cases succeeds with
        | help asked => exact absurd asked other
        | run lines reads' => simp [reads] at reads'
      · exact fun _ => failed

/-- A line that fails makes no difference to the status. -/
theorem succeeds_iff_of_failure {files' : FileSystem} {stdin' : Input}
    {front rest : List (Except StreamError String)} {line : String} {error : LineError}
    (fails : (((Engine.empty : Engine Int64).follow (script front)).execute line).1 = .error error)
    (reads : lines? args files stdin = some (front ++ .ok line :: rest))
    (reads' : lines? args files' stdin' = some (front ++ rest)) :
    Succeeds args files' stdin' output ↔ Succeeds args files stdin output := by
  have goesOn := Session.goesOn_of_failure fails
  have found : (front ++ .ok line :: rest).find? halts = (front ++ rest).find? halts := by
    simp [goesOn]
  rw [succeeds_iff_of_lines output reads, succeeds_iff_of_lines output reads', found,
    Session.printout_of_failure fails]

end Run

theorem room_empty (limit : Option Nat) : (Output.empty limit).Room := by
  intro limit _
  exact Nat.zero_le limit

/-- The first argument that settles it says what all of them ask for. The status is zero if the
program succeeds and one otherwise; nothing is written where the arguments are wrong or the input
does not open. Lines that fail and diagnostics make no difference to the status. -/
theorem run_status (args : List String) :
    (∀ i argument, args[i]? = some argument → Invocation.Settles args i →
      (∀ j < i, ¬ Invocation.Settles args j) →
      Invocation.ofArgs args = Invocation.settled argument ∧
      ∀ later, Invocation.ofArgs (args.take (i + 1) ++ later) = Invocation.ofArgs args) ∧
    ((∀ i, ¬ Invocation.Settles args i) →
      args.length ≤ 1 ∧ Invocation.ofArgs args = .ok (.run args.head?)) ∧
    (∀ s t number lines, Session.Agrees s t → (t.run number lines).1 = (s.run number lines).1) ∧
    ∀ (files : FileSystem) (stdin : Input) limit,
      let output := Output.empty limit
      let c := run args files stdin output
      (Succeeds args files stdin output → c.status = 0) ∧
      (¬ Succeeds args files stdin output → c.status = 1) ∧
      (∀ e, Invocation.ofArgs args = .error e → c.output.written = ByteArray.empty) ∧
      (∀ path e, Invocation.ofArgs args = .ok (.run (some path)) → files.access path = .error e →
        c.output.written = ByteArray.empty) ∧
      (limit = none → ∀ lines, lines? args files stdin = some lines →
        (∀ e, lines.find? halts ≠ some (.error e)) → c.status = 0) ∧
      ∀ front line rest error,
        (((Engine.empty : Engine Int64).follow (script front)).execute line).1 = .error error →
        lines? args files stdin = some (front ++ .ok line :: rest) →
        ∀ files' stdin', lines? args files' stdin' = some (front ++ rest) →
          (run args files' stdin' output).status = c.status := by
  refine ⟨?_, fun unsettled => Invocation.ofArgs_of_unsettled unsettled,
    fun s t number lines agree => agree.run number lines, ?_⟩
  · intro i argument here settles first
    have whole := Invocation.ofArgs_of_settles here settles first (args.drop (i + 1))
    rw [List.take_append_drop] at whole
    refine ⟨whole, fun later => ?_⟩
    rw [whole]
    exact Invocation.ofArgs_of_settles here settles first later
  · intro files stdin limit output c
    have room : output.Room := room_empty limit
    obtain ⟨zero, one⟩ : (Succeeds args files stdin output → c.status = 0) ∧
        (¬ Succeeds args files stdin output → c.status = 1) := status_run room
    refine ⟨zero, one, ?_, ?_, ?_, ?_⟩
    · intro e wrong
      have unchanged : c.output = output := by simp only [c, run, wrong]
      rw [unchanged]
      rfl
    · intro path e asked absent
      have unchanged : c.output = output := by simp only [c, run, asked, absent]
      rw [unchanged]
      rfl
    · intro unlimited lines reads readable
      exact zero (.run lines reads readable (Output.room_of_unlimited unlimited))
    · intro front line rest error fails reads files' stdin' reads'
      have same : Succeeds args files' stdin' output ↔ Succeeds args files stdin output :=
        succeeds_iff_of_failure fails reads reads'
      obtain ⟨zero', one'⟩ : (Succeeds args files' stdin' output → _) ∧ _ := status_run room
      by_cases succeeds : Succeeds args files stdin output
      · rw [zero succeeds, zero' (same.mpr succeeds)]
      · rw [one succeeds, one' (mt same.mp succeeds)]

def grumbling : List UInt8 := "a add 2\nprint ghost\nprint a\n".toUTF8.data.toList

def severed : StreamError := .other "Input/output error (os error 5)"

def broken (text : String) : Input := ⟨text.toUTF8.data.toList, some severed⟩

def denied : FileSystem := ⟨fun _ => .error (.other "Permission denied (os error 13)")⟩

theorem run_status_grumbling :
    Invocation.ofArgs ["calc.txt", "--help", "-x"] = .ok .help ∧
    (run [] denied (.ofBytes grumbling) (Output.empty (some 2))).status = 0 ∧
    (run [] denied (.ofBytes "a add 2\nprint a\n".toUTF8.data.toList)
      (Output.empty (some 2))).status = 0 ∧
    (run [] denied (broken "quit\n") (Output.empty none)).status = 0 ∧
    (run [] denied (broken "a add 2\n") (Output.empty none)).status = 1 ∧
    (run ["calc.txt"] denied (.ofBytes grumbling) (Output.empty none)).status = 1 ∧
    (run ["calc.txt"] denied (.ofBytes grumbling) (Output.empty none)).output.written =
      ByteArray.empty := by
  have settles : Invocation.Settles ["calc.txt", "--help", "-x"] 1 :=
    ⟨"--help", rfl, .inr (.inl rfl)⟩
  have first : ∀ j < 1, ¬ Invocation.Settles ["calc.txt", "--help", "-x"] j := by
    intro j lt
    obtain rfl := Nat.lt_one_iff.mp lt
    exact mt Invocation.settles_zero.mp (by decide)
  obtain ⟨asked, _⟩ := (run_status ["calc.txt", "--help", "-x"]).1 1 "--help" rfl settles first
  have reads : lines? [] denied (.ofBytes grumbling) =
      some ([.ok "a add 2"] ++ .ok "print ghost" :: [.ok "print a"]) := by decide +kernel
  have reads' : lines? [] denied (.ofBytes "a add 2\nprint a\n".toUTF8.data.toList) =
      some ([.ok "a add 2"] ++ [.ok "print a"]) := by decide +kernel
  have fails : (((Engine.empty : Engine Int64).follow
      (script [.ok "a add 2"])).execute "print ghost").1 =
        .error (.fault (.registerNotFound "ghost")) := by decide +kernel
  obtain ⟨zero, _, _, _, _, same⟩ := (run_status []).2.2.2 denied (.ofBytes grumbling) (some 2)
  have succeeds : Succeeds [] denied (.ofBytes grumbling) (Output.empty (some 2)) := by
    refine .run _ reads ?_ ?_
    · have none : ([.ok "a add 2"] ++ .ok "print ghost" :: [.ok "print a"] :
          List (Except StreamError String)).find? halts = none := by decide +kernel
      intro e
      rw [none]
      nofun
    · have printed : printout (script ([.ok "a add 2"] ++ .ok "print ghost" :: [.ok "print a"]))
          Engine.empty = "2\n" := by decide +kernel
      rw [printed]
      exact fun limit bounded => by obtain rfl := Option.some.inj bounded; decide
  -- A failure behind a line that quits is never met, one before it ends the run.
  obtain ⟨_, _, _, _, quits, _⟩ := (run_status []).2.2.2 denied (broken "quit\n") none
  have quit : lines? [] denied (broken "quit\n") = some [.ok "quit", .error severed] := by
    decide +kernel
  obtain ⟨_, breaks, _⟩ := (run_status []).2.2.2 denied (broken "a add 2\n") none
  have cut : lines? [] denied (broken "a add 2\n") = some [.ok "a add 2", .error severed] := by
    decide +kernel
  have unread : ¬ Succeeds [] denied (broken "a add 2\n") (Output.empty none) := by
    rw [succeeds_iff_of_lines _ cut]
    exact fun succeeds => succeeds.1 severed (by decide +kernel)
  obtain ⟨_, refuses, _, silent, _⟩ :=
    (run_status ["calc.txt"]).2.2.2 denied (.ofBytes grumbling) none
  have closed : ¬ Succeeds ["calc.txt"] denied (.ofBytes grumbling) (Output.empty none) := by
    intro succeeds
    cases succeeds with
    | help asked => nomatch asked
    | run lines reads => nomatch reads
  refine ⟨asked, zero succeeds, (same _ _ _ _ fails reads denied _ reads').trans (zero succeeds),
    quits rfl _ quit ?_, breaks unread, refuses closed, silent "calc.txt" _ rfl rfl⟩
  intro e
  have found : ([.ok "quit", .error severed] :
      List (Except StreamError String)).find? halts = some (.ok "quit") := by decide +kernel
  rw [found]
  nofun

end CommandLine

end RegisterCalculator
