import RegisterCalculator.Proofs.Dialogue

namespace RegisterCalculator

/-! A line is read in its normal form only. -/

theorem Text.normalize_push_return (text : String) :
    normalize (text.push '\r') = normalize text := by
  simp [normalize, trimLineEnd, isLineEnd]

section Normalize

variable {line line' : String}

theorem Command.parse_of_normalize (same : Text.normalize line' = Text.normalize line) :
    parse line' = parse line := by
  rw [parse, parse, same]

theorem Engine.execute_of_normalize {α : Type} [Accumulator α]
    (same : Text.normalize line' = Text.normalize line) (e : Engine α) :
    e.execute line' = e.execute line := by
  simp only [execute, Command.parse_of_normalize same]

theorem Session.errorNotice_of_normalize (same : Text.normalize line' = Text.normalize line)
    (place : String) (e : LineError) : errorNotice place line' e = errorNotice place line e := by
  cases e with
  | malformed cause => rw [errorNotice, errorNotice, same]
  | fault cause => rfl

theorem Session.feed_of_normalize (same : Text.normalize line' = Text.normalize line)
    (number : Nat) (s : Session) : s.feed number line' = s.feed number line := by
  simp only [feed, Engine.execute_of_normalize same]
  cases (s.engine.execute line).1 with
  | error e => simp only [answer, errorNotice_of_normalize same]
  | ok outcome => cases outcome <;> rfl

theorem Session.run_cons_of_normalize {first first' : Except StreamError String}
    {rest rest' : List (Except StreamError String)} {s : Session}
    (same : first'.map Text.normalize = first.map Text.normalize)
    (later : ∀ (number : Nat) (t : Session), t.engine.diagnostics = #[] →
      t.run number rest' = t.run number rest)
    (number : Nat) : s.run number (first' :: rest') = s.run number (first :: rest) := by
  cases first with
  | error e =>
    cases first' with
    | error e' =>
      obtain rfl : e' = e := Except.error.inj same
      rfl
    | ok line' => nomatch same
  | ok line =>
    cases first' with
    | error e' => nomatch same
    | ok line' =>
      have drained := drained_feed number line s
      rw [run, run, feed_of_normalize (Except.ok.inj same)]
      rcases fed : s.feed number line with ⟨_ | result, t⟩
      · rw [fed] at drained
        exact later (number + 1) t drained
      · rfl

/-- A run sees no more of its lines than their normal forms and which of them cannot be read. -/
theorem Session.run_of_normalize {lines lines' : List (Except StreamError String)}
    (same : lines'.map (Except.map Text.normalize) = lines.map (Except.map Text.normalize))
    (number : Nat) (s : Session) : s.run number lines' = s.run number lines := by
  induction lines generalizing lines' number s with
  | nil => rw [List.map_eq_nil_iff.mp same]
  | cons first lines ih =>
    obtain ⟨first', lines', rfl, here, later⟩ := List.map_eq_cons_iff.mp same
    exact run_cons_of_normalize here (fun number t _ => ih later number t) number

end Normalize

namespace Stream

theorem decode_eq_ok_iff {bytes : List UInt8} {text : String} :
    decode bytes = .ok text ↔ bytes = text.toList.flatMap String.utf8EncodeChar := by
  have encoded : text.toByteArray = (text.toList.flatMap String.utf8EncodeChar).toByteArray :=
    String.utf8Encode_toList.symm
  constructor
  · intro decoded
    unfold decode at decoded
    split at decoded
    · next found =>
      unfold String.fromUTF8? at found
      split at found
      · cases decoded
        cases found
        exact List.toByteArray_inj.mp encoded
      · nomatch found
    · nomatch decoded
  · intro same
    have valid : bytes.toByteArray.IsValidUTF8 := ⟨text.toList, congrArg _ same⟩
    have back : String.fromUTF8 bytes.toByteArray valid = text := by
      apply String.toByteArray_inj.mp
      rw [encoded, ← same]
      rfl
    simp [decode, String.fromUTF8?, valid, back]

theorem decode_eq_error {bytes : List UInt8} (bad : ∀ text, decode bytes ≠ .ok text) :
    decode bytes = .error .invalidUtf8 := by
  unfold decode at bad ⊢
  split
  · next text found => simp [found] at bad
  · rfl

theorem eq_zero_of_getElem_encode {c : Char} {i : Nat} {here : i < (String.utf8EncodeChar c).length}
    {byte : UInt8} (code : (String.utf8EncodeChar c)[i] = byte) (low : byte &&& 0x80 = 0) : i = 0 := by
  have begins : byte.IsUTF8FirstByte := .inl low
  rwa [← code, UInt8.isUTF8FirstByte_getElem_utf8EncodeChar] at begins

/-- A carriage return is no part of any other character. -/
theorem eq_nil_of_encodes {c : Char} {front : List UInt8}
    (encodes : String.utf8EncodeChar c = front ++ [13]) : front = [] := by
  have here : front.length < (String.utf8EncodeChar c).length := by simp [encodes]
  have code : (String.utf8EncodeChar c)[front.length] = 13 := by simp [encodes]
  exact List.length_eq_zero_iff.mp (eq_zero_of_getElem_encode code (by decide))

theorem decode_of_concat_return {bytes : List UInt8} {text : String}
    (decoded : decode (bytes ++ [13]) = .ok text) : ∃ before, decode bytes = .ok before := by
  have encoded := decode_eq_ok_iff.mp decoded
  rcases List.eq_nil_or_concat' text.toList with empty | ⟨cs, c, whole⟩
  · simp [empty] at encoded
  · rcases List.eq_nil_or_concat' (String.utf8EncodeChar c) with empty | ⟨front, byte, last⟩
    · exact absurd empty String.utf8EncodeChar_ne_nil
    · rw [whole, List.flatMap_append, List.flatMap_singleton, last, ← List.append_assoc] at encoded
      obtain ⟨before, same⟩ := List.append_inj' encoded rfl
      cases same
      -- The code of the last character ends in 13, and so it is nothing else.
      obtain rfl := eq_nil_of_encodes last
      refine ⟨String.ofList cs, decode_eq_ok_iff.mpr ?_⟩
      rw [before, String.toList_ofList, List.append_nil]

/-- What precedes a carriage return is text if and only if the whole is. -/
theorem decode_concat_return (bytes : List UInt8) :
    decode (bytes ++ [13]) = (decode bytes).map (·.push '\r') := by
  have code : String.utf8EncodeChar '\r' = [13] := by decide
  cases decoded : decode bytes with
  | ok text =>
    rw [Except.map, decode_eq_ok_iff, decode_eq_ok_iff.mp decoded]
    simp [code]
  | error e =>
    have bad : decode bytes = .error .invalidUtf8 :=
      decode_eq_error fun text good => by simp [good] at decoded
    rw [← decoded, bad]
    refine decode_eq_error fun text good => ?_
    obtain ⟨before, good'⟩ := decode_of_concat_return good
    rw [bad] at good'
    nomatch good'

namespace RawLine

theorem normalize_content (l : RawLine) :
    (decode l.content).map Text.normalize = (decode l.bytes).map Text.normalize := by
  unfold content
  split
  · next returned =>
    simp only [Bool.and_eq_true, beq_iff_eq] at returned
    obtain ⟨bytes, whole⟩ := List.getLast?_eq_some_iff.mp returned.2
    rw [whole, List.dropLast_concat, decode_concat_return]
    cases decode bytes with
    | error e => rfl
    | ok text => simp only [Except.map, Text.normalize_push_return]
  · rfl

def withReturn (l : RawLine) : RawLine := if l.terminated then ⟨l.bytes ++ [13], true⟩ else l

theorem content_withReturn (l : RawLine) : l.withReturn.content = l.bytes := by
  unfold withReturn
  split
  · simp [content]
  · next unended => simp [content, unended]

theorem attach_withReturn {byte : UInt8} (other : byte ≠ 10) (ls : List RawLine) :
    attach byte (ls.map withReturn) = (attach byte ls).map withReturn := by
  cases ls with
  | nil => simp [attach, other, withReturn]
  | cons l ls =>
    simp only [List.map_cons, attach, if_neg other, withReturn]
    split <;> rfl

theorem bytes_attach {byte : UInt8} {ls ls' : List RawLine}
    (same : ls'.map bytes = ls.map bytes) :
    (attach byte ls').map bytes = (attach byte ls).map bytes := by
  cases ls with
  | nil => rw [List.map_eq_nil_iff.mp same]
  | cons l ls =>
    obtain ⟨l', ls', rfl, here, later⟩ := List.map_eq_cons_iff.mp same
    simp only [attach]
    split <;> simp [here, later]

end RawLine

open RawLine

/-- The bytes with a carriage return put before every line feed. -/
def withReturns (bytes : List UInt8) : List UInt8 :=
  bytes.flatMap fun byte => if byte = 10 then [13, 10] else [byte]

/-- The bytes with a line feed at the end, unless there is one already. -/
def terminated (bytes : List UInt8) : List UInt8 :=
  if bytes.getLast? = some 10 then bytes else bytes ++ [10]

theorem split_withReturns (bytes : List UInt8) :
    split (withReturns bytes) = (split bytes).map withReturn := by
  induction bytes with
  | nil => rfl
  | cons byte bytes ih =>
    rw [split_cons byte bytes, withReturns, List.flatMap_cons]
    by_cases feed : byte = 10
    · subst feed
      rw [if_pos rfl, List.cons_append, List.singleton_append, split_cons, split_cons, attach_feed,
        attach_feed, List.map_cons, ← ih]
      rfl
    · rw [if_neg feed, List.singleton_append, split_cons, ← attach_withReturn feed, ← ih]
      rfl

theorem bytes_split_concat {byte : UInt8} (other : byte ≠ 10) (bytes : List UInt8) :
    (split (bytes ++ [byte] ++ [10])).map RawLine.bytes =
      (split (bytes ++ [byte])).map RawLine.bytes := by
  induction bytes with
  | nil => simp [split, attach, other]
  | cons first bytes ih => exact bytes_attach ih

theorem normalize_lines (bytes : List UInt8) :
    (lines bytes).map (Except.map Text.normalize) =
      ((split bytes).map RawLine.bytes).map fun line => (decode line).map Text.normalize := by
  simp [lines, normalize_content]

theorem normalize_lines_withReturns (bytes : List UInt8) :
    (lines (withReturns bytes)).map (Except.map Text.normalize) =
      (lines bytes).map (Except.map Text.normalize) := by
  rw [normalize_lines bytes, lines, split_withReturns]
  simp [content_withReturn]

theorem normalize_lines_concat {byte : UInt8} (other : byte ≠ 10) (bytes : List UInt8) :
    (lines (bytes ++ [byte] ++ [10])).map (Except.map Text.normalize) =
      (lines (bytes ++ [byte])).map (Except.map Text.normalize) := by
  rw [normalize_lines, normalize_lines, bytes_split_concat other]

end Stream

namespace Session

theorem run_of_blank {s : Session} (drained : s.engine.diagnostics = #[]) {line : String}
    (parsed : Command.parse line = .ok .blank) (number : Nat) :
    s.run number [.ok line] = (.ok (), s) := by
  obtain ⟨origin, ⟨store, diagnostics⟩, output, notices⟩ := s
  obtain rfl : diagnostics = #[] := drained
  simp [run, feed, Engine.execute, parsed, Engine.perform, Engine.drain, answer]

theorem run_blank (origin : String) (limit : Option Nat) :
    (fresh origin limit).run 1 [.ok ""] = (.ok (), fresh origin limit) :=
  run_of_blank rfl (by decide +kernel) 1

/-- Line ends make no difference. Carriage returns before the line feeds of an input, or a line feed
at its end, change neither how a session ends nor what it writes, what it tells, and what its
registers hold. The input need not be text. -/
theorem hold_of_line_ends (origin : String) (limit : Option Nat) (bytes : List UInt8) :
    hold origin limit (Stream.withReturns bytes) = hold origin limit bytes ∧
    hold origin limit (Stream.terminated bytes) = hold origin limit bytes := by
  constructor
  · exact run_of_normalize (Stream.normalize_lines_withReturns bytes) 1 _
  · rcases List.eq_nil_or_concat' bytes with rfl | ⟨front, byte, rfl⟩
    · exact run_blank origin limit
    · unfold Stream.terminated
      split
      · rfl
      · next unended =>
        have other : byte ≠ 10 := by simpa using unended
        exact run_of_normalize (Stream.normalize_lines_concat other front) 1 _

end Session

end RegisterCalculator
