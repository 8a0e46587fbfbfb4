import RegisterCalculator.Stream.Error

namespace RegisterCalculator

/-- What has been written, and how many bytes there is room for if room is limited. -/
structure Output where
  written : ByteArray
  limit : Option Nat

namespace Output

def empty (limit : Option Nat) : Output := ⟨ByteArray.empty, limit⟩

/-- Writes a text. When it does not fit, the bytes that do are kept. -/
def write (text : String) : Output → Except StreamError Unit × Output
  | ⟨written, none⟩ => (.ok (), ⟨written ++ text.toUTF8, none⟩)
  | ⟨written, some limit⟩ =>
    let all := written ++ text.toUTF8
    if all.size ≤ limit then (.ok (), ⟨all, some limit⟩)
    else (.error .outputFull, ⟨all.extract 0 limit, some limit⟩)

def add (text : String) (o : Output) : Output := ⟨o.written ++ text.toUTF8, o.limit⟩

/-- What has been written is within the limit, if there is one. -/
def Room (o : Output) : Prop := ∀ limit, o.limit = some limit → o.written.size ≤ limit

theorem room_of_unlimited {o : Output} (unlimited : o.limit = none) : o.Room := by
  intro limit bounded
  rw [unlimited] at bounded
  nomatch bounded

theorem add_empty (o : Output) : o.add "" = o := by
  simp [add]

theorem add_append (first last : String) (o : Output) :
    o.add (first ++ last) = (o.add first).add last := by
  simp [add, ByteArray.append_assoc]

theorem Room.of_add {text : String} {o : Output} (room : (o.add text).Room) : o.Room := by
  intro limit bounded
  have within := room limit bounded
  rw [add, ByteArray.size_append] at within
  omega

theorem write_of_room {text : String} {o : Output} (room : (o.add text).Room) :
    o.write text = (.ok (), o.add text) := by
  obtain ⟨written, limit⟩ := o
  cases limit with
  | none => rfl
  | some limit => exact if_pos (room limit rfl)

theorem write_of_full {text : String} {written : ByteArray} {limit : Nat}
    (full : limit < (written ++ text.toUTF8).size) :
    write text ⟨written, some limit⟩ =
      (.error .outputFull, ⟨(written ++ text.toUTF8).extract 0 limit, some limit⟩) :=
  if_neg (Nat.not_le.mpr full)

theorem write_eq_ok_iff {text : String} {o : Output} :
    (o.write text).1 = .ok () ↔ (o.add text).Room := by
  constructor
  · intro written limit bounded
    obtain ⟨front, _⟩ := o
    obtain rfl : _ = some limit := bounded
    apply Nat.le_of_not_lt
    intro full
    rw [write_of_full full] at written
    nomatch written
  · intro room
    rw [write_of_room room]

theorem eq_outputFull_of_write {text : String} {o : Output} {e : StreamError}
    (fails : (o.write text).1 = .error e) : e = .outputFull := by
  obtain ⟨written, limit⟩ := o
  cases limit with
  | none => nomatch fails
  | some limit =>
    rw [write] at fails
    split at fails
    · nomatch fails
    · exact (Except.error.inj fails).symm

end Output

end RegisterCalculator
