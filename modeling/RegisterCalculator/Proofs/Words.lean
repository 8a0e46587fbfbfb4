import Mathlib.Data.List.TakeWhile
import Mathlib.Data.String.Basic
import RegisterCalculator.Text.Lowercase
import RegisterCalculator.Text.Word

namespace RegisterCalculator.Text

open String (utf8Len)

/-- What stands between the blanks of a text, where it is anything. -/
def stretches (cs : List Char) : List (List Char) :=
  (cs.splitOnP isBlank).filter (!·.isEmpty)

/-- A blank parts a text in two, each with its own stretches. -/
theorem stretches_append_blank {c : Char} (blank : isBlank c = true) (first last : List Char) :
    stretches (first ++ c :: last) = stretches first ++ stretches last := by
  simp only [stretches, List.splitOnP_append_cons first last blank, List.filter_append]

theorem stretches_blank {c : Char} (blank : isBlank c = true) (cs : List Char) :
    stretches (c :: cs) = stretches cs := stretches_append_blank blank [] cs

theorem stretches_solid {cs : List Char} (some : cs ≠ []) (solid : ∀ c ∈ cs, isBlank c = false) :
    stretches cs = [cs] := by
  simp [stretches, List.splitOnP_eq_singleton solid, some]

theorem stretches_intercalate {ws : List (List Char)}
    (solid : ∀ w ∈ ws, w ≠ [] ∧ ∀ c ∈ w, isBlank c = false) :
    stretches ([' '].intercalate ws) = ws := by
  induction ws with
  | nil => rfl
  | cons w ws ih =>
    obtain ⟨⟨some, letters⟩, rest⟩ := List.forall_mem_cons.mp solid
    have single : stretches w = [w] := stretches_solid some letters
    cases ws with
    | nil => rw [List.intercalate_singleton, single]
    | cons v ws =>
      have space : isBlank ' ' = true := by decide
      rw [List.intercalate_cons_cons, List.append_assoc, List.singleton_append,
        stretches_append_blank space, single, ih rest, List.singleton_append]

/-- Blanks in front of a text make no difference. -/
theorem stretches_gap {gap : List Char} (blank : ∀ c ∈ gap, isBlank c = true) (rest : List Char) :
    stretches (gap ++ rest) = stretches rest := by
  induction gap with
  | nil => rfl
  | cons c gap ih =>
    obtain ⟨first, blank⟩ := List.forall_mem_cons.mp blank
    rw [List.cons_append, stretches_blank first, ih blank]

theorem stretches_of_gap {gap : List Char} (blank : ∀ c ∈ gap, isBlank c = true) :
    stretches gap = [] := by
  have none := stretches_gap blank []
  rwa [List.append_nil] at none

theorem stretches_append_gap {gap : List Char} (blank : ∀ c ∈ gap, isBlank c = true)
    (cs : List Char) : stretches (cs ++ gap) = stretches cs := by
  cases gap with
  | nil => rw [List.append_nil]
  | cons c gap =>
    obtain ⟨first, blank⟩ := List.forall_mem_cons.mp blank
    rw [stretches_append_blank first, stretches_of_gap blank, List.append_nil]

theorem isBlank_of_isLineEnd {c : Char} (ends : isLineEnd c = true) : isBlank c = true := by
  simp only [isLineEnd, Bool.or_eq_true, beq_iff_eq] at ends
  rcases ends with rfl | rfl <;> decide

theorem stretches_trimLineEnd (cs : List Char) : stretches (trimLineEnd cs) = stretches cs := by
  let ends := (cs.reverse.takeWhile isLineEnd).reverse
  have whole : trimLineEnd cs ++ ends = cs := by
    rw [trimLineEnd, ← List.reverse_append, List.takeWhile_append_dropWhile, List.reverse_reverse]
  have blank : ∀ c ∈ ends, isBlank c = true := fun c mem =>
    isBlank_of_isLineEnd (List.mem_takeWhile_imp (List.mem_reverse.mp mem))
  have same := stretches_append_gap blank (trimLineEnd cs)
  rw [whole] at same
  exact same.symm

theorem stretches_word {chars rest : List Char} (some : chars ≠ [])
    (solid : ∀ c ∈ chars, isBlank c = false) (ends : ∀ c ∈ rest.head?, isBlank c = true) :
    stretches (chars ++ rest) = chars :: stretches rest := by
  have single : stretches chars = [chars] := stretches_solid some solid
  cases rest with
  | nil => rw [List.append_nil, single, show stretches [] = [] from rfl]
  | cons c rest =>
    have space : isBlank c = true := ends c rfl
    rw [stretches_append_blank space, stretches_blank space, single, List.singleton_append]

theorem of_mem_splitOnP {cs stretch : List Char} (among : stretch ∈ cs.splitOnP isBlank)
    {c : Char} (within : c ∈ stretch) : c ∈ cs ∧ isBlank c = false := by
  induction cs generalizing stretch with
  | nil =>
    rw [List.splitOnP_nil, List.mem_singleton] at among
    subst among
    nomatch within
  | cons d cs ih =>
    have later : ∀ stretch ∈ cs.splitOnP isBlank, c ∈ stretch → c ∈ d :: cs ∧ isBlank c = false :=
      fun _ among within => (ih among within).imp_left (List.mem_cons_of_mem d)
    obtain ⟨first, rest, pieces⟩ := List.exists_cons_of_ne_nil (List.splitOnP_ne_nil isBlank cs)
    rw [List.splitOnP_cons_eq_if_modifyHead] at among
    split at among
    · next blank =>
      rcases List.mem_cons.mp among with rfl | among
      · nomatch within
      · exact later _ among within
    · next letter =>
      rw [pieces, List.modifyHead_cons] at among
      rcases List.mem_cons.mp among with rfl | among
      · rcases List.mem_cons.mp within with rfl | within
        · exact ⟨List.mem_cons_self .., by simpa using letter⟩
        · exact later first (by simp [pieces]) within
      · exact later _ (by simp [pieces, among]) within

namespace Word

theorem le_start_of_mem {offset : Nat} {cs : List Char} {w : Word} (mem : w ∈ splitFrom offset cs) :
    offset ≤ w.span.start := by
  induction cs generalizing offset w with
  | nil => simp [splitFrom] at mem
  | cons c cs ih =>
    have further : ∀ w ∈ splitFrom (offset + c.utf8Size) cs, offset ≤ w.span.start := by
      intro w mem
      have start := ih mem
      omega
    rw [splitFrom] at mem
    split at mem
    · exact further w mem
    · cases words : splitFrom (offset + c.utf8Size) cs with
      | nil =>
        rw [words, attach, List.mem_singleton] at mem
        subst mem
        exact Nat.le_refl _
      | cons v vs =>
        rw [words] at mem further
        simp only [attach] at mem
        split at mem
        · rcases List.mem_cons.mp mem with rfl | mem
          · exact Nat.le_refl _
          · exact further w (List.mem_cons_of_mem _ mem)
        · rcases List.mem_cons.mp mem with rfl | mem
          · exact Nat.le_refl _
          · exact further w mem

theorem attach_apart {c : Char} {start stop : Nat} {ws : List Word}
    (apart : ∀ w ∈ ws, stop < w.span.start) :
    attach c start stop ws = ⟨[c], ⟨start, stop⟩⟩ :: ws := by
  cases ws with
  | nil => rfl
  | cons w ws =>
    have further := apart w (List.mem_cons_self ..)
    rw [attach, if_neg (Nat.ne_of_gt further)]

theorem splitFrom_gap {gap : List Char} (blank : ∀ c ∈ gap, isBlank c = true) (offset : Nat)
    (rest : List Char) : splitFrom offset (gap ++ rest) = splitFrom (offset + utf8Len gap) rest := by
  induction gap generalizing offset with
  | nil => rfl
  | cons c gap ih =>
    obtain ⟨first, blank⟩ := List.forall_mem_cons.mp blank
    have further : offset + c.utf8Size + utf8Len gap = offset + utf8Len (c :: gap) := by
      rw [String.utf8Len_cons]
      omega
    rw [List.cons_append, splitFrom, if_pos first, ih blank, further]

theorem lt_start_of_mem {offset : Nat} {rest : List Char}
    (ends : ∀ c ∈ rest.head?, isBlank c = true) {w : Word} (mem : w ∈ splitFrom offset rest) :
    offset < w.span.start := by
  cases rest with
  | nil => nomatch mem
  | cons c rest =>
    rw [splitFrom, if_pos (ends c rfl)] at mem
    have start := le_start_of_mem mem
    have size := c.utf8Size_pos
    omega

/-- Characters without blanks in front of a blank are the first word. -/
theorem splitFrom_word {chars rest : List Char} (some : chars ≠ [])
    (solid : ∀ c ∈ chars, isBlank c = false) (ends : ∀ c ∈ rest.head?, isBlank c = true)
    (offset : Nat) :
    splitFrom offset (chars ++ rest) =
      ⟨chars, ⟨offset, offset + utf8Len chars⟩⟩ :: splitFrom (offset + utf8Len chars) rest := by
  induction chars generalizing offset with
  | nil => exact absurd rfl some
  | cons c chars ih =>
    obtain ⟨letter, solid⟩ := List.forall_mem_cons.mp solid
    have further : offset + c.utf8Size + utf8Len chars = offset + utf8Len (c :: chars) := by
      rw [String.utf8Len_cons]
      omega
    rw [List.cons_append, splitFrom, if_neg (by simp [letter])]
    cases chars with
    | nil =>
      rw [List.nil_append, attach_apart fun w mem => lt_start_of_mem ends mem, ← further]
      rfl
    | cons d chars =>
      rw [ih (by simp) solid, attach, if_pos rfl, further]

end Word

/-- Words that follow each other in a text from an offset on, with gaps of blanks around them. A
word goes on up to the next blank. -/
inductive Laid : Nat → List Char → List Word → Prop where
  | gap {offset gap} (blank : ∀ c ∈ gap, isBlank c = true) : Laid offset gap []
  | word {offset gap chars rest ws} (blank : ∀ c ∈ gap, isBlank c = true) (some : chars ≠ [])
    (solid : ∀ c ∈ chars, isBlank c = false) (ends : ∀ c ∈ rest.head?, isBlank c = true)
    (more : Laid (offset + utf8Len gap + utf8Len chars) rest ws) :
    Laid offset (gap ++ chars ++ rest)
      (⟨chars, ⟨offset + utf8Len gap, offset + utf8Len gap + utf8Len chars⟩⟩ :: ws)

theorem Laid.eq_splitFrom {offset : Nat} {cs : List Char} {ws : List Word}
    (laid : Laid offset cs ws) : ws = Word.splitFrom offset cs := by
  induction laid with
  | @gap offset gap blank =>
    have none := Word.splitFrom_gap blank offset []
    rw [List.append_nil] at none
    exact none.symm
  | word blank some solid ends _ ih =>
    rw [List.append_assoc, Word.splitFrom_gap blank, Word.splitFrom_word some solid ends, ← ih]

theorem length_dropWhile_lt {p : Char → Bool} {cs : List Char} (some : cs.takeWhile p ≠ []) :
    (cs.dropWhile p).length < cs.length := by
  have positive : 0 < (cs.takeWhile p).length := List.length_pos_iff.mpr some
  have parts : (cs.takeWhile p).length + (cs.dropWhile p).length = cs.length := by
    rw [← List.length_append, List.takeWhile_append_dropWhile]
  omega

/-- What a loop of two scanners finds from an offset on. One passes over blanks, and the other takes
what stands before the next blank. -/
def Word.scanFrom (offset : Nat) (cs : List Char) : List Word :=
  let start := offset + utf8Len (cs.takeWhile isBlank)
  let remaining := cs.dropWhile isBlank
  let chars := remaining.takeWhile (!isBlank ·)
  if chars = [] then []
  else
    ⟨chars, ⟨start, start + utf8Len chars⟩⟩ ::
      scanFrom (start + utf8Len chars) (remaining.dropWhile (!isBlank ·))
termination_by cs.length
decreasing_by
  next some =>
    exact Nat.lt_of_lt_of_le (length_dropWhile_lt some) (List.length_dropWhile_le isBlank cs)

/-- The second scanner finds nothing only where the first has passed over everything. -/
theorem dropWhile_isBlank_eq_nil {cs : List Char}
    (none : (cs.dropWhile isBlank).takeWhile (!isBlank ·) = []) : cs.dropWhile isBlank = [] := by
  cases behind : cs.dropWhile isBlank with
  | nil => rfl
  | cons c later =>
    have letter : isBlank c = false := by simpa [behind] using List.head?_dropWhile_not isBlank cs
    simp [behind, letter] at none

theorem laid_scanFrom (offset : Nat) (cs : List Char) : Laid offset cs (Word.scanFrom offset cs) := by
  induction offset, cs using Word.scanFrom.induct with
  | case1 offset cs remaining chars none =>
    have parts : cs.takeWhile isBlank ++ cs.dropWhile isBlank = cs :=
      List.takeWhile_append_dropWhile
    rw [dropWhile_isBlank_eq_nil none, List.append_nil] at parts
    rw [Word.scanFrom, if_pos none]
    exact .gap fun c mem => List.mem_takeWhile_imp (parts.symm ▸ mem)
  | case2 offset cs start remaining chars some ih =>
    have whole : cs.takeWhile isBlank ++ chars ++ remaining.dropWhile (!isBlank ·) = cs := by
      rw [List.append_assoc, List.takeWhile_append_dropWhile, List.takeWhile_append_dropWhile]
    have solid : ∀ c ∈ chars, isBlank c = false := fun c mem => by
      simpa using List.mem_takeWhile_imp mem
    have ends : ∀ c ∈ (remaining.dropWhile (!isBlank ·)).head?, isBlank c = true := by
      intro c first
      have stops := List.head?_dropWhile_not (!isBlank ·) remaining
      rw [show (List.dropWhile _ _).head? = _ from first] at stops
      simpa using stops
    have laid := Laid.word (fun c => List.mem_takeWhile_imp) some solid ends ih
    rw [whole] at laid
    rw [Word.scanFrom, if_neg some]
    exact laid

/-- The loop finds the words that are put together from the end of the text. -/
theorem Word.scanFrom_eq_splitFrom (offset : Nat) (cs : List Char) :
    scanFrom offset cs = splitFrom offset cs := (laid_scanFrom offset cs).eq_splitFrom

theorem laid_iff {offset : Nat} {cs : List Char} {ws : List Word} :
    Laid offset cs ws ↔ ws = Word.splitFrom offset cs := by
  constructor
  · exact Laid.eq_splitFrom
  · rintro rfl
    rw [← Word.scanFrom_eq_splitFrom]
    exact laid_scanFrom offset cs

theorem Laid.map_chars {offset : Nat} {cs : List Char} {ws : List Word} (laid : Laid offset cs ws) :
    ws.map Word.chars = stretches cs := by
  induction laid with
  | gap blank => exact (stretches_of_gap blank).symm
  | word blank some solid ends _ ih =>
    rw [List.append_assoc, stretches_gap blank, stretches_word some solid ends, List.map_cons, ih]

theorem Word.chars_splitFrom (offset : Nat) (cs : List Char) :
    (splitFrom offset cs).map chars = stretches cs := (laid_iff.mpr rfl).map_chars

/-- The words of a line, without their places. A line is read in its normal form. -/
def words (line : String) : List String := (stretches (normalize line).toList).map String.ofList

theorem map_text_split (line : String) : (Word.split (normalize line)).map Word.text = words line := by
  rw [words, ← Word.chars_splitFrom 0, List.map_map]
  rfl

theorem of_mem_words {line word : String} (mem : word ∈ words line) :
    word.toList ≠ [] ∧ ∀ c ∈ word.toList, isBlank c = false := by
  obtain ⟨stretch, among, rfl⟩ := List.mem_map.mp mem
  obtain ⟨among, some⟩ := List.mem_filter.mp among
  rw [String.toList_ofList]
  exact ⟨by simpa using some, fun c within => (of_mem_splitOnP among within).2⟩

theorem mem_normalize_of_mem_words {line word : String} (mem : word ∈ words line) {c : Char}
    (within : c ∈ word.toList) : c ∈ (normalize line).toList := by
  obtain ⟨stretch, among, rfl⟩ := List.mem_map.mp mem
  rw [String.toList_ofList] at within
  exact (of_mem_splitOnP (List.mem_filter.mp among).1 within).1

end RegisterCalculator.Text
