import Mathlib.Data.List.Chain
import RegisterCalculator.Proofs.Words

namespace RegisterCalculator.Text

open String (utf8Len)

/-- A span starts and stops between characters of a text, and what it shows stands there. -/
structure Span.Shows (s : Span) (text shown : String) : Prop where
  ordered : s.start ≤ s.stop
  start : String.Pos.Raw.IsValid text ⟨s.start⟩
  stop : String.Pos.Raw.IsValid text ⟨s.stop⟩
  bytes : text.toByteArray.extract s.start s.stop = shown.toByteArray

theorem exists_between {front back before after : List Char} (same : front ++ back = before ++ after)
    (le : utf8Len front ≤ utf8Len before) : ∃ gap, before = front ++ gap ∧ back = gap ++ after := by
  rcases List.append_eq_append_iff.mp same with ⟨gap, later, rest⟩ | ⟨gap, earlier, rest⟩
  · exact ⟨gap, later, rest⟩
  · rw [earlier, String.utf8Len_append] at le
    have none : gap = [] := String.utf8Len_eq_zero.mp (by omega)
    subst none
    exact ⟨[], by simpa using earlier.symm, by simpa using rest.symm⟩

theorem exists_behind {front back before after : List Char} {c : Char}
    (same : front ++ c :: back = before ++ after) (lt : utf8Len front < utf8Len before) :
    ∃ gap, before = front ++ c :: gap ∧ back = gap ++ after := by
  obtain ⟨gap, later, rest⟩ := exists_between same (Nat.le_of_lt lt)
  cases gap with
  | nil =>
    rw [later, List.append_nil] at lt
    exact absurd lt (Nat.lt_irrefl _)
  | cons d gap =>
    have first := (List.cons.inj rest).1
    subst first
    exact ⟨gap, later, (List.cons.inj rest).2⟩

theorem isValid_iff {text : String} {offset : Nat} :
    String.Pos.Raw.IsValid text ⟨offset⟩ ↔
      ∃ before after, text.toList = before ++ after ∧ offset = utf8Len before := by
  rw [String.Pos.Raw.isValid_iff_exists_append]
  constructor
  · rintro ⟨before, after, whole, place⟩
    refine ⟨before.toList, after.toList, by rw [whole, String.toList_append], ?_⟩
    rw [String.utf8Len_toList]
    exact congrArg String.Pos.Raw.byteIdx place
  · rintro ⟨before, after, whole, rfl⟩
    refine ⟨String.ofList before, String.ofList after, ?_, ?_⟩
    · rw [← String.ofList_append, ← whole, String.ofList_toList]
    · rw [← String.utf8ByteSize_ofList]
      rfl

theorem extract_between {text : String} {before between after : List Char}
    (whole : text.toList = before ++ between ++ after) :
    text.toByteArray.extract (utf8Len before) (utf8Len before + utf8Len between) =
      (String.ofList between).toByteArray := by
  have parts : text = String.ofList before ++ String.ofList between ++ String.ofList after := by
    rw [← String.ofList_append, ← String.ofList_append, ← whole, String.ofList_toList]
  have front : (String.ofList before).toByteArray.size = utf8Len before := by
    rw [String.size_toByteArray, String.utf8ByteSize_ofList]
  have middle : (String.ofList between).toByteArray.size = utf8Len between := by
    rw [String.size_toByteArray, String.utf8ByteSize_ofList]
  have behind := ByteArray.extract_append_size_add (a := (String.ofList before).toByteArray)
    (b := (String.ofList between).toByteArray ++ (String.ofList after).toByteArray) (i := 0)
    (j := utf8Len between)
  rw [parts, String.append_assoc, String.toByteArray_append, String.toByteArray_append, ← front]
  exact behind.trans (ByteArray.extract_append_eq_left middle.symm)

/-- A span shows what stands between two parts of the text. -/
theorem Span.shows_iff {s : Span} {text shown : String} :
    s.Shows text shown ↔ ∃ before after, text.toList = before ++ shown.toList ++ after ∧
      s = ⟨utf8Len before, utf8Len before + utf8Len shown.toList⟩ := by
  constructor
  · intro h
    obtain ⟨before, later, whole, start⟩ := isValid_iff.mp h.start
    obtain ⟨earlier, after, whole', stop⟩ := isValid_iff.mp h.stop
    have le : utf8Len before ≤ utf8Len earlier := by
      rw [← start, ← stop]
      exact h.ordered
    obtain ⟨between, passed, _⟩ := exists_between (whole.symm.trans whole') le
    have parts : text.toList = before ++ between ++ after := by rw [whole', passed]
    have length : s.stop = utf8Len before + utf8Len between := by
      rw [stop, passed, String.utf8Len_append]
    have bytes := h.bytes
    rw [start, length, extract_between parts, String.toByteArray_inj] at bytes
    subst bytes
    refine ⟨before, after, by rw [parts, String.toList_ofList], ?_⟩
    rw [String.toList_ofList, ← length, ← start]
  · rintro ⟨before, after, whole, rfl⟩
    refine ⟨Nat.le_add_right .., ?_, ?_, ?_⟩
    · exact isValid_iff.mpr ⟨before, shown.toList ++ after, by simpa using whole, rfl⟩
    · exact isValid_iff.mpr ⟨before ++ shown.toList, after, whole, by simp⟩
    · rw [extract_between whole, String.ofList_toList]

theorem Span.shows_singleton_iff {s : Span} {text : String} {c : Char} :
    s.Shows text (String.singleton c) ↔ ∃ before after, text.toList = before ++ c :: after ∧
      s = ⟨utf8Len before, utf8Len before + c.utf8Size⟩ := by
  simp [Span.shows_iff]

theorem Span.shows_char {text : String} {before after : List Char} {c : Char}
    (whole : text.toList = before ++ c :: after) :
    Span.Shows ⟨utf8Len before, utf8Len before + c.utf8Size⟩ text (String.singleton c) :=
  Span.shows_singleton_iff.mpr ⟨before, after, whole, rfl⟩

theorem Word.shown_iff {w : Word} {text : String} :
    w.span.Shows text w.text ↔ ∃ before after, text.toList = before ++ w.chars ++ after ∧
      w.span = ⟨utf8Len before, utf8Len before + utf8Len w.chars⟩ := by
  rw [Span.shows_iff, Word.text, String.toList_ofList]

/-- What it is to find the words that stand in a line from an offset on. Each is anything, without
blanks, and its span shows it. They stand in order, a blank at least between two of them, and every
character outside of them is a blank. -/
structure Divides (line : String) (offset : Nat) (ws : List Word) : Prop where
  solid : ∀ w ∈ ws, w.chars ≠ [] ∧ ∀ c ∈ w.chars, isBlank c = false
  shown : ∀ w ∈ ws, w.span.Shows line w.text
  inside : ∀ w ∈ ws, offset ≤ w.span.start
  ordered : ws.Pairwise fun v w => v.span.stop < w.span.start
  parted : ws.IsChain fun v w => ∃ c, ∃ s : Span, isBlank c = true ∧
    s.Shows line (String.singleton c) ∧ v.span.stop ≤ s.start ∧ s.stop ≤ w.span.start
  blank : ∀ c (s : Span), s.Shows line (String.singleton c) → offset ≤ s.start →
    (∀ w ∈ ws, s.stop ≤ w.span.start ∨ w.span.stop ≤ s.start) → isBlank c = true

namespace Divides

variable {line : String} {w : Word} {ws : List Word}

theorem tail {offset : Nat} (h : Divides line offset (w :: ws)) : Divides line w.span.stop ws := by
  obtain ⟨further, ordered⟩ := List.pairwise_cons.mp h.ordered
  have here : offset ≤ w.span.start := h.inside w (List.mem_cons_self ..)
  have forward : w.span.start ≤ w.span.stop := (h.shown w (List.mem_cons_self ..)).ordered
  constructor
  · exact fun v mem => h.solid v (List.mem_cons_of_mem _ mem)
  · exact fun v mem => h.shown v (List.mem_cons_of_mem _ mem)
  · exact fun v mem => Nat.le_of_lt (further v mem)
  · exact ordered
  · exact (List.isChain_cons.mp h.parted).2
  · intro c s shows behind outside
    apply h.blank c s shows (by omega)
    exact List.forall_mem_cons.mpr ⟨.inr behind, outside⟩

section First

variable {offset : Nat} (h : Divides line offset (w :: ws)) {before after : List Char} {c : Char}
  (whole : line.toList = before ++ c :: after)

include h whole

theorem blank_before (inside : offset ≤ utf8Len before)
    (front : utf8Len before + c.utf8Size ≤ w.span.start) : isBlank c = true := by
  apply h.blank c _ (Span.shows_char whole) inside
  refine List.forall_mem_cons.mpr ⟨.inl front, fun v mem => .inl ?_⟩
  have forward := (h.shown w (List.mem_cons_self ..)).ordered
  have later := (List.pairwise_cons.mp h.ordered).1 v mem
  dsimp only
  omega

/-- Right behind the first word stands a blank, if anything. -/
theorem blank_behind (stop : w.span.stop = utf8Len before) : isBlank c = true := by
  have tail := h.tail
  apply tail.blank c _ (Span.shows_char whole) (Nat.le_of_eq stop)
  intro v mem
  obtain ⟨front, back, parts, span⟩ := Word.shown_iff.mp (tail.shown v mem)
  have later := (List.pairwise_cons.mp h.ordered).1 v mem
  rw [stop, span] at later
  rw [whole, List.append_assoc] at parts
  obtain ⟨gap, passed, _⟩ := exists_behind parts later
  left
  rw [span, passed, String.utf8Len_append, String.utf8Len_cons]
  dsimp only
  omega

end First

theorem laid {front cs : List Char} (whole : line.toList = front ++ cs)
    (h : Divides line (utf8Len front) ws) : Laid (utf8Len front) cs ws := by
  induction ws generalizing front cs with
  | nil =>
    apply Laid.gap
    intro c mem
    obtain ⟨before, after, rfl⟩ := List.append_of_mem mem
    have parts : line.toList = front ++ before ++ c :: after := by rw [whole, List.append_assoc]
    exact h.blank c _ (Span.shows_char parts) (by simp) (by simp)
  | cons w ws ih =>
    obtain ⟨some, solid⟩ := h.solid w (List.mem_cons_self ..)
    obtain ⟨before, after, parts, span⟩ := Word.shown_iff.mp (h.shown w (List.mem_cons_self ..))
    have here : utf8Len front ≤ utf8Len before := by
      have inside := h.inside w (List.mem_cons_self ..)
      rwa [span] at inside
    rw [whole, List.append_assoc] at parts
    obtain ⟨gap, rfl, rfl⟩ := exists_between parts here
    have parts : line.toList = front ++ gap ++ w.chars ++ after := by simp [whole]
    have stop : w.span.stop = utf8Len (front ++ gap ++ w.chars) := by
      rw [String.utf8Len_append _ w.chars, span]
    have blank : ∀ c ∈ gap, isBlank c = true := by
      intro c mem
      obtain ⟨first, last, rfl⟩ := List.append_of_mem mem
      have parts : line.toList = front ++ first ++ c :: (last ++ w.chars ++ after) := by simp [parts]
      apply h.blank_before parts
      · simp
      · simp only [span, String.utf8Len_append, String.utf8Len_cons]
        omega
    have ends : ∀ c ∈ after.head?, isBlank c = true := by
      intro c first
      obtain ⟨rest, rfl⟩ := List.head?_eq_some_iff.mp first
      exact h.blank_behind parts stop
    have more := ih parts (stop ▸ h.tail)
    have length : utf8Len (front ++ gap) = utf8Len front + utf8Len gap := String.utf8Len_append ..
    have word : w = ⟨w.chars, ⟨utf8Len front + utf8Len gap,
        utf8Len front + utf8Len gap + utf8Len w.chars⟩⟩ := by rw [← length, ← span]
    rw [String.utf8Len_append, length] at more
    rw [word, ← List.append_assoc]
    exact .word blank some solid ends more

end Divides

namespace Divides

variable {line : String} {ws : List Word} {front rest : List Char}
  (parts : line.toList = front ++ rest) (ends : ∀ c ∈ rest.head?, isBlank c = true)
  (later : Divides line (utf8Len front) ws)

include parts ends later

/-- Where a blank comes first, it parts every word from what is in front. -/
theorem exists_parting {v : Word} (mem : v ∈ ws) : ∃ c behind, rest = c :: behind ∧
    isBlank c = true ∧ utf8Len front + c.utf8Size ≤ v.span.start := by
  obtain ⟨some, solid⟩ := later.solid v mem
  obtain ⟨before, after, parts', span⟩ := Word.shown_iff.mp (later.shown v mem)
  have le := later.inside v mem
  rw [span] at le
  rw [parts, List.append_assoc] at parts'
  obtain ⟨between, rfl, rfl⟩ := exists_between parts' le
  cases between with
  | nil =>
    obtain ⟨c, chars, letters⟩ := List.exists_cons_of_ne_nil some
    have letter := solid c (by simp [letters])
    have blank := ends c (by simp [letters])
    rw [blank] at letter
    nomatch letter
  | cons c between =>
    refine ⟨c, between ++ (v.chars ++ after), rfl, ends c rfl, ?_⟩
    rw [span, String.utf8Len_append, String.utf8Len_cons]
    dsimp only
    omega

end Divides

theorem Divides.cons {line : String} {front gap chars rest : List Char} {ws : List Word}
    (parts : line.toList = front ++ gap ++ chars ++ rest)
    (blank : ∀ c ∈ gap, isBlank c = true) (some : chars ≠ [])
    (solid : ∀ c ∈ chars, isBlank c = false) (ends : ∀ c ∈ rest.head?, isBlank c = true)
    (later : Divides line (utf8Len (front ++ gap ++ chars)) ws) :
    Divides line (utf8Len front)
      (⟨chars, ⟨utf8Len (front ++ gap), utf8Len (front ++ gap) + utf8Len chars⟩⟩ :: ws) := by
  have stop : utf8Len (front ++ gap) + utf8Len chars = utf8Len (front ++ gap ++ chars) :=
    (String.utf8Len_append ..).symm
  have start : utf8Len front ≤ utf8Len (front ++ gap) := by simp
  rw [stop]
  constructor
  · exact List.forall_mem_cons.mpr ⟨⟨some, solid⟩, later.solid⟩
  · have first : Span.Shows ⟨utf8Len (front ++ gap), utf8Len (front ++ gap ++ chars)⟩ line
        (String.ofList chars) := by
      rw [← stop]
      exact Span.shows_iff.mpr ⟨front ++ gap, rest, by simpa using parts, by simp⟩
    exact List.forall_mem_cons.mpr ⟨first, later.shown⟩
  · refine List.forall_mem_cons.mpr ⟨start, fun v mem => ?_⟩
    have inside := later.inside v mem
    omega
  · refine List.pairwise_cons.mpr ⟨fun v mem => ?_, later.ordered⟩
    obtain ⟨c, _, _, _, further⟩ := exists_parting parts ends later mem
    have size := c.utf8Size_pos
    dsimp only
    omega
  · refine List.isChain_cons.mpr ⟨fun v next => ?_, later.parted⟩
    obtain ⟨c, behind, rfl, space, further⟩ :=
      exists_parting parts ends later (List.mem_of_mem_head? next)
    exact ⟨c, _, space, Span.shows_char parts, Nat.le_refl _, further⟩
  · intro c s shows behind outside
    obtain ⟨apart, outside⟩ := List.forall_mem_cons.mp outside
    rcases apart with ahead | past
    · obtain ⟨before, after, parts', rfl⟩ := Span.shows_singleton_iff.mp shows
      have whole : line.toList = before ++ [c] ++ after := by simp [parts']
      have within : utf8Len (before ++ [c]) ≤ utf8Len (front ++ gap) := by simpa using ahead
      rw [parts, List.append_assoc] at whole
      obtain ⟨between, passed, _⟩ := exists_between whole.symm within
      rw [parts, List.append_assoc, List.append_assoc] at parts'
      obtain ⟨first, rfl, _⟩ := exists_between parts' behind
      rw [List.append_assoc, List.append_assoc, List.append_cancel_left_eq] at passed
      exact blank c (by simp [passed])
    · exact later.blank c s shows past outside

theorem Laid.divides {line : String} {front cs : List Char} (whole : line.toList = front ++ cs)
    {offset : Nat} (start : offset = utf8Len front) {ws : List Word} (laid : Laid offset cs ws) :
    Divides line offset ws := by
  induction laid generalizing front with
  | @gap offset gap blank =>
    constructor
    case blank =>
      intro c s shows behind _
      obtain ⟨before, after, parts, rfl⟩ := Span.shows_singleton_iff.mp shows
      obtain ⟨first, _, rfl⟩ := exists_between (whole.symm.trans parts) (start ▸ behind)
      exact blank c (by simp)
    all_goals simp
  | @word offset gap chars rest ws blank some solid ends _ ih =>
    subst start
    have parts : line.toList = front ++ gap ++ chars ++ rest := by simp [whole]
    have gapped : utf8Len front + utf8Len gap = utf8Len (front ++ gap) :=
      (String.utf8Len_append ..).symm
    have stop : utf8Len (front ++ gap) + utf8Len chars = utf8Len (front ++ gap ++ chars) :=
      (String.utf8Len_append ..).symm
    rw [gapped] at ih ⊢
    have later := ih parts stop
    rw [stop] at later
    exact .cons parts blank some solid ends later

theorem Divides.split (line : String) : Divides line 0 (Word.split line) := by
  have whole : line.toList = [] ++ line.toList := rfl
  have laid : Laid 0 line.toList (Word.split line) := laid_iff.mpr rfl
  exact laid.divides whole rfl

/-- The words of a line are what splitting it gives, each with the place where it stands, and
nothing else divides the line. -/
theorem Word.divides_iff (line : String) (ws : List Word) :
    Divides line 0 ws ↔ ws = Word.split line := by
  constructor
  · intro divides
    have whole : line.toList = [] ++ line.toList := rfl
    exact (divides.laid whole).eq_splitFrom
  · intro same
    rw [same]
    exact .split line

/-- The spans count bytes: the blank takes two here. -/
example : (Word.split "a\u00a0add 1").map Word.span = [⟨0, 1⟩, ⟨3, 6⟩, ⟨7, 8⟩] := by decide

end RegisterCalculator.Text
