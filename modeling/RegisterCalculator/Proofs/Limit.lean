import RegisterCalculator.Proofs.Dialogue

namespace RegisterCalculator

namespace Session

/-- The same session on an output with a limit. -/
def limited (limit : Nat) (s : Session) : Session :=
  { s with output := ⟨s.output.written, some limit⟩ }

/-- The limit is not looked at as long as there is room. -/
theorem heed_limited (limit number : Nat) (line : String) (s : Session) :
    (s.limited limit).heed number line = (s.heed number line).limited limit := by
  simp only [heed, limited, Output.add]

theorem heedAll_limited (limit number : Nat) (lines : List String) (s : Session) :
    (s.limited limit).heedAll number lines = (s.heedAll number lines).limited limit := by
  induction lines generalizing s number with
  | nil => rfl
  | cons line rest ih => rw [heedAll, heedAll, heed_limited, ih]

theorem room_limited {limit : Nat} {s : Session} :
    (s.limited limit).output.Room ↔ s.output.written.size ≤ limit := by
  constructor
  · intro room
    exact room limit rfl
  · intro within limit' same
    obtain rfl : limit = limit' := Option.some.inj same
    exact within

theorem printed_of_longer {s : Session} {number : Nat} {line : String}
    (longer : s.output.written.size < (s.heed number line).output.written.size) :
    ∃ value, (s.engine.execute line).1 = .ok (.printed value) := by
  rw [output_heed] at longer
  cases outcome : (s.engine.execute line).1 with
  | error e => simp [outcome, reply, Output.add_empty] at longer
  | ok outcome' =>
    cases outcome' with
    | printed value => exact ⟨value, rfl⟩
    | _ => simp [outcome, reply, Output.add_empty] at longer

/-- A print whose text does not fit ends the session. The registers are those after the line, its
diagnostics are told, and as much of the text is kept as there is room for. -/
theorem feed_of_full {limit number : Nat} {line : String} {s : Session} {value : Int64}
    (prints : (s.engine.execute line).1 = .ok (.printed value))
    (full : limit < (s.heed number line).output.written.size) :
    (s.limited limit).feed number line =
      (.ended (.error .outputFull),
        { s.heed number line with
          output := ⟨(s.heed number line).output.written.extract 0 limit, some limit⟩ }) := by
  rw [output_heed, prints] at full
  have cut := Output.write_of_full full
  rw [reply] at cut
  simp [limited, feed, heed, Engine.drain, prints, answer, reply, told, cut, Output.add]

theorem heedAll_append (number : Nat) (front rest : List String) (s : Session) :
    s.heedAll number (front ++ rest) =
      (s.heedAll number front).heedAll (number + front.length) rest := by
  induction front generalizing s number with
  | nil => rfl
  | cons line front ih =>
    rw [List.cons_append, heedAll, heedAll, ih, List.length_cons, Nat.add_right_comm, Nat.add_assoc]

theorem notices_heedAll (number : Nat) (lines : List String) (s : Session) :
    s.notices.toList <+: (s.heedAll number lines).notices.toList := by
  induction lines generalizing s number with
  | nil => exact List.prefix_refl _
  | cons line rest ih =>
    refine List.IsPrefix.trans ?_ (ih (number + 1) (s.heed number line))
    simp only [heed, Array.toList_append]
    exact List.prefix_append _ _

theorem extract_heedAll {limit : Nat} {s : Session} (full : limit ≤ s.output.written.size)
    (number : Nat) (lines : List String) :
    (s.heedAll number lines).output.written.extract 0 limit = s.output.written.extract 0 limit := by
  rw [output_heedAll, Output.add, ByteArray.extract_append, Nat.sub_eq_zero_of_le full]
  simp

/-- A line with a number prints a value, which takes a session past a limit. -/
structure Overflow (limit number : Nat) (line : String) (value : Int64) (s s' : Session) :
    Prop where
  prints : (s.engine.execute line).1 = .ok (.printed value)
  store : s'.engine.store = (s.engine.execute line).2.store
  drained : s'.engine.diagnostics = #[]
  told : s'.notices = s.notices ++ (s.engine.execute line).2.diagnostics.map
    (.text <| Notice.diagnosticText (s.origin ++ ":" ++ Nat.repr number) ·)
  written : s'.output.written =
    s.output.written ++ (Text.Decimal.ofInt value.toInt ++ "\n").toUTF8
  within : s.output.written.size ≤ limit
  past : limit < s'.output.written.size

theorem overflow_heed {limit number : Nat} {line : String} {s : Session}
    (within : s.output.written.size ≤ limit)
    (past : limit < (s.heed number line).output.written.size) :
    ∃ value, Overflow limit number line value s (s.heed number line) := by
  obtain ⟨value, prints⟩ := printed_of_longer (Nat.lt_of_le_of_lt within past)
  refine ⟨value, prints, ?_, drained_heed number line s, ?_, ?_, within, past⟩
  · rw [engine_heed, Engine.drain]
  · simp only [heed, told, prints]
  · rw [output_heed, prints, reply, Output.add]

theorem exists_overflow {limit number : Nat} {lines : List String} {s : Session}
    (within : s.output.written.size ≤ limit)
    (full : limit < (s.heedAll number lines).output.written.size) :
    ∃ before line after value, lines = before ++ [line] ++ after ∧
      Overflow limit (number + before.length) line value (s.heedAll number before)
        (s.heedAll number (before ++ [line])) := by
  induction lines generalizing s number with
  | nil => exact absurd within (Nat.not_le.mpr full)
  | cons line rest ih =>
    by_cases past : limit < (s.heed number line).output.written.size
    · obtain ⟨value, overflow⟩ := overflow_heed within past
      exact ⟨[], line, rest, value, rfl, overflow⟩
    · obtain ⟨before, line', after, value, rfl, overflow⟩ := ih (Nat.not_lt.mp past) full
      rw [Nat.add_assoc, Nat.add_comm 1] at overflow
      exact ⟨line :: before, line', after, value, rfl, overflow⟩

theorem run_map_ok {front : List String} (goesOn : ∀ line ∈ front, halts (.ok line) = false)
    (origin : String) :
    ((fresh origin none).run 1 (front.map .ok)).2 = (fresh origin none).heedAll 1 front := by
  have whole := run_heedAll goesOn (room_heedAll origin 1 front) []
  rw [List.append_nil] at whole
  rw [whole, run]

/-- A limit ends a run at the line that takes it past the limit, whatever stands behind the line. -/
theorem run_limited {limit number : Nat} {before : List String} {line : String} {s : Session}
    {value : Int64} (goesOn : ∀ line ∈ before, halts (.ok line) = false)
    (overflow : Overflow limit (number + before.length) line value (s.heedAll number before)
      (s.heedAll number (before ++ [line])))
    (rest : List (Except StreamError String)) :
    (s.limited limit).run number (before.map .ok ++ .ok line :: rest) =
      (.error .outputFull,
        { s.heedAll number (before ++ [line]) with
          output := ⟨(s.heedAll number (before ++ [line])).output.written.extract 0 limit,
            some limit⟩ }) := by
  have room : ((s.limited limit).heedAll number before).output.Room := by
    rw [heedAll_limited, room_limited]
    exact overflow.within
  have past := overflow.past
  rw [heedAll_append, heedAll, heedAll] at past ⊢
  rw [run_heedAll goesOn room, heedAll_limited, run, feed_of_full overflow.prints past]

/-- An output with room for all that a session prints makes no difference. One that is too small
cuts the session off at the first print that does not fit, after that line has been carried out and
its diagnostics have been told. -/
theorem hold_limited (origin : String) (bytes : List UInt8) (limit : Nat) :
    ((hold origin none bytes).2.output.written.size ≤ limit →
      hold origin (some limit) bytes =
        ((hold origin none bytes).1, (hold origin none bytes).2.limited limit)) ∧
    (limit < (hold origin none bytes).2.output.written.size →
      ∃ before line rest value, Stream.lines bytes = before ++ .ok line :: rest ∧
        let s := ((fresh origin none).run 1 before).2
        let s' := ((fresh origin none).run 1 (before ++ [.ok line])).2
        Overflow limit (before.length + 1) line value s s' ∧
        hold origin none bytes = s'.run (before.length + 2) rest ∧
        s'.notices.toList <+: (hold origin none bytes).2.notices.toList ∧
        ∀ rest', (fresh origin (some limit)).run 1 (before ++ .ok line :: rest') =
          (.error .outputFull,
            { s' with
              output := ⟨(hold origin none bytes).2.output.written.extract 0 limit,
                some limit⟩ })) := by
  have whole : hold origin none bytes = (ending _, (fresh origin none).heedAll 1 _) :=
    run_fresh origin 1 (Stream.lines bytes)
  constructor
  · intro within
    rw [whole] at within ⊢
    have room : (((fresh origin none).limited limit).heedAll 1
        (script (Stream.lines bytes))).output.Room := by
      rw [heedAll_limited, room_limited]
      exact within
    have heeded : hold origin (some limit) bytes = _ :=
      run_of_room (s := (fresh origin none).limited limit) rfl room
    rw [heeded, heedAll_limited]
  · intro full
    rw [whole] at full
    obtain ⟨before, line, after, value, parts, overflow⟩ := exists_overflow (Nat.zero_le _) full
    obtain ⟨goesOn, remainder, lines, _⟩ := eq_script_append (Stream.lines bytes)
    rw [parts] at goesOn lines whole
    have upto : ∀ line' ∈ before ++ [line], halts (.ok line') = false := by
      intro line' among
      exact goesOn line' (List.mem_append_left _ among)
    have front : ∀ line' ∈ before, halts (.ok line') = false := by
      intro line' among
      exact upto line' (List.mem_append_left _ among)
    let s' := (fresh origin none).heedAll 1 (before ++ [line])
    have behind : (fresh origin none).heedAll 1 (before ++ [line] ++ after) = s'.heedAll _ after :=
      heedAll_append 1 (before ++ [line]) after (fresh origin none)
    have stays : (hold origin none bytes).2.output.written.extract 0 limit =
        s'.output.written.extract 0 limit := by
      rw [whole, behind]
      exact extract_heedAll (Nat.le_of_lt overflow.past) _ after
    refine ⟨before.map .ok, line, after.map .ok ++ remainder, value, by simpa using lines, ?_⟩
    have last : (before.map .ok ++ [.ok line] : List (Except StreamError String)) =
        (before ++ [line]).map .ok := by simp
    rw [last, run_map_ok upto, run_map_ok front, List.length_map, stays]
    refine ⟨?_, ?_, ?_, run_limited front overflow⟩
    · rwa [Nat.add_comm] at overflow
    · calc hold origin none bytes
          = (fresh origin none).run 1
              ((before ++ [line]).map .ok ++ (after.map .ok ++ remainder)) := by
            rw [← List.append_assoc, ← List.map_append, ← lines, hold]
        _ = s'.run (1 + (before ++ [line]).length) (after.map .ok ++ remainder) :=
            run_heedAll upto (room_heedAll origin 1 _) _
        _ = s'.run (before.length + 2) (after.map .ok ++ remainder) := by
            rw [List.length_append, List.length_singleton, Nat.add_comm 1]
    · rw [whole, behind]
      exact notices_heedAll _ after s'

def spoiled : List UInt8 :=
  "a add 7\na multiply 6\nprint a\n".toUTF8.data.toList ++ [255, 10]

theorem hold_limited_spoiled :
    hold "stdin" (some 3) spoiled =
      ((hold "stdin" none spoiled).1, (hold "stdin" none spoiled).2.limited 3) ∧
    (hold "stdin" none spoiled).1 = .error .invalidUtf8 ∧
    (hold "stdin" (some 1) spoiled).1 = .error .outputFull ∧
    (hold "stdin" (some 1) spoiled).2.output.written = "4".toUTF8 := by
  have printed : printout (script (Stream.lines spoiled)) Engine.empty = "42\n" := by
    decide +kernel
  have whole : hold "stdin" none spoiled = _ := run_fresh "stdin" 1 (Stream.lines spoiled)
  have written : (hold "stdin" none spoiled).2.output.written = "42\n".toUTF8 := by
    rw [whole, output_heedAll, ← printed]
    exact ByteArray.empty_append
  obtain ⟨roomy, _⟩ := hold_limited "stdin" spoiled 3
  obtain ⟨_, tight⟩ := hold_limited "stdin" spoiled 1
  obtain ⟨before, line, rest, value, lines, _, _, _, cut⟩ := tight (by rw [written]; decide)
  have digit : "42\n".toUTF8.extract 0 1 = "4".toUTF8 := by decide +kernel
  have short : hold "stdin" (some 1) spoiled = _ := (congrArg _ lines).trans (cut rest)
  refine ⟨roomy (by rw [written]; decide), ?_, ?_, ?_⟩
  · rw [whole]
    decide +kernel
  · rw [short]
  · rw [short, written, digit]

end Session

end RegisterCalculator
