import Mathlib.Data.List.Basic
import RegisterCalculator.Stream.Lines

namespace RegisterCalculator.Stream

namespace RawLine

theorem split_cons (byte : UInt8) (bytes : List UInt8) :
    split (byte :: bytes) = attach byte (split bytes) := rfl

theorem attach_feed (ls : List RawLine) : attach 10 ls = ⟨[], true⟩ :: ls := by
  cases ls <;> rfl

theorem split_terminated {line : List UInt8} (inside : 10 ∉ line) (rest : List UInt8) :
    split (line ++ 10 :: rest) = ⟨line, true⟩ :: split rest := by
  induction line with
  | nil => exact attach_feed _
  | cons byte line ih =>
    obtain ⟨other, inside⟩ := not_or.mp (mt List.mem_cons.mpr inside)
    rw [List.cons_append, split_cons, ih inside, attach, if_neg (Ne.symm other)]

theorem split_unended {line : List UInt8} (inside : 10 ∉ line) (some : line ≠ []) :
    split line = [⟨line, false⟩] := by
  induction line with
  | nil => exact absurd rfl some
  | cons byte line ih =>
    obtain ⟨other, inside⟩ := not_or.mp (mt List.mem_cons.mpr inside)
    cases line with
    | nil => simp [split, attach, Ne.symm other]
    | cons next line => rw [split_cons, ih inside (by simp), attach, if_neg (Ne.symm other)]

end RawLine

open RawLine

/-- What it is to cut bytes into lines. A line feed ends a line, and a carriage return right before
it belongs to that end. What stands behind the last line feed is one more line if it is anything. -/
structure CutsLines (cut : List UInt8 → List (Except StreamError String)) : Prop where
  nothing : cut [] = []
  unended : ∀ line, 10 ∉ line → line ≠ [] → cut line = [decode line]
  fed : ∀ line rest, 10 ∉ line → line.getLast? ≠ some 13 →
    cut (line ++ 10 :: rest) = decode line :: cut rest
  returned : ∀ line rest, 10 ∉ line → cut (line ++ 13 :: 10 :: rest) = decode line :: cut rest

theorem cutsLines_lines : CutsLines lines where
  nothing := rfl
  unended line inside some := by
    rw [lines, split_unended inside some]
    rfl
  fed line rest inside plain := by
    rw [lines, split_terminated inside]
    simp [lines, content, plain]
  returned line rest inside := by
    have inside : 10 ∉ line ++ [13] := by simpa using inside
    have again : line ++ 13 :: 10 :: rest = (line ++ [13]) ++ 10 :: rest := by simp
    rw [again, lines, split_terminated inside]
    simp [lines, content]

/-- There is only one way to cut bytes into lines. -/
theorem CutsLines.unique {cut cut' : List UInt8 → List (Except StreamError String)}
    (h : CutsLines cut) (h' : CutsLines cut') (bytes : List UInt8) : cut bytes = cut' bytes := by
  induction size : bytes.length using Nat.strongRecOn generalizing bytes with
  | ind n ih =>
    -- The laws cover every input: the first line feed ends a line, or there is none.
    by_cases ended : 10 ∈ bytes
    · obtain ⟨line, rest, rfl, inside⟩ := List.eq_append_cons_of_mem ended
      have again : cut rest = cut' rest := ih rest.length (by simp at size; omega) rest rfl
      by_cases returned : line.getLast? = some 13
      · obtain ⟨line, rfl⟩ := List.getLast?_eq_some_iff.mp returned
        have inside : 10 ∉ line := fun within => inside (List.mem_append_left _ within)
        rw [List.append_assoc, List.singleton_append, h.returned line rest inside,
          h'.returned line rest inside, again]
      · rw [h.fed line rest inside returned, h'.fed line rest inside returned, again]
    · cases bytes with
      | nil => rw [h.nothing, h'.nothing]
      | cons byte bytes => rw [h.unended _ ended (by simp), h'.unended _ ended (by simp)]

theorem cutsLines_iff {cut : List UInt8 → List (Except StreamError String)} :
    CutsLines cut ↔ cut = lines := by
  constructor
  · intro h
    exact funext (h.unique cutsLines_lines)
  · rintro rfl
    exact cutsLines_lines

theorem eq_invalidUtf8_of_mem_lines {bytes : List UInt8} {e : StreamError}
    (bad : .error e ∈ lines bytes) : e = .invalidUtf8 := by
  obtain ⟨line, _, undecoded⟩ := List.mem_map.mp bad
  unfold decode at undecoded
  split at undecoded
  · simp at undecoded
  · exact (Except.error.inj undecoded).symm

end RegisterCalculator.Stream

namespace RegisterCalculator

namespace Input

/-- A line that has been ended is read whatever happens behind it. -/
theorem lines_fed {line : List UInt8} (inside : 10 ∉ line) (rest : List UInt8)
    (failure : Option StreamError) :
    lines ⟨line ++ 10 :: rest, failure⟩ =
      Stream.decode (Stream.RawLine.content ⟨line, true⟩) :: lines ⟨rest, failure⟩ := by
  cases failure <;> simp [lines, Stream.lines, Stream.RawLine.split_terminated inside]

theorem lines_append {head : List UInt8} (ends : head.getLast? = some 10) (rest : List UInt8)
    (failure : Option StreamError) :
    lines ⟨head ++ rest, failure⟩ = lines (ofBytes head) ++ lines ⟨rest, failure⟩ := by
  induction size : head.length using Nat.strongRecOn generalizing head with
  | ind n ih =>
    obtain ⟨line, later, rfl, inside⟩ := List.eq_append_cons_of_mem (List.mem_of_getLast? ends)
    rw [ofBytes, lines_fed inside, List.append_assoc, List.cons_append, lines_fed inside,
      List.cons_append]
    cases later with
    | nil => rfl
    | cons byte later =>
      have shorter : (byte :: later).length < n := by
        rw [← size, List.length_append]
        simp only [List.length_cons]
        omega
      have again := ih _ shorter (by simpa [List.getLast?_append] using ends) rfl
      rw [again, ofBytes]

/-- The line that is being read when the stream fails is lost. -/
theorem lines_failing {line : List UInt8} (inside : 10 ∉ line) (e : StreamError) :
    lines ⟨line, some e⟩ = [.error e] := by
  cases line with
  | nil => rfl
  | cons byte line => simp [lines, Stream.RawLine.split_unended inside]

end Input

theorem Stream.lines_append {head : List UInt8} (ends : head.getLast? = some 10)
    (tail : List UInt8) : lines (head ++ tail) = lines head ++ lines tail :=
  Input.lines_append ends tail none

end RegisterCalculator
