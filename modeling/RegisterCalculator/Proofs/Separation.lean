import RegisterCalculator.Proofs.Lowering
import RegisterCalculator.Proofs.Words

namespace RegisterCalculator.Text

theorem CodeRange.exists_of_covers {code : Nat} {rs : List CodeRange}
    (covered : covers code rs = true) : ∃ r ∈ rs, r.first ≤ code ∧ code ≤ r.last := by
  induction rs with
  | nil => nomatch covered
  | cons r rs ih =>
    rw [covers] at covered
    split at covered
    · nomatch covered
    · next reached =>
      rw [Bool.or_eq_true, decide_eq_true_eq] at covered
      rcases covered with inside | later
      · have start : r.first ≤ code := Nat.not_lt.mp reached
        exact ⟨r, List.mem_cons_self .., start, inside⟩
      · obtain ⟨q, among, bounds⟩ := ih later
        exact ⟨q, List.mem_cons_of_mem _ among, bounds⟩

theorem caseless_blankRanges :
    (blankRanges.all fun r => (List.range' r.first (r.last + 1 - r.first)).all fun code =>
      Nat.beq (CaseRange.map code caseRanges) code && !CodeRange.covers code casedRanges &&
        !CodeRange.covers code caseIgnorableRanges) = true := by
  decide +kernel

theorem caseRanges_apart_blankRanges :
    (caseRanges.all fun r => blankRanges.all fun q =>
      Nat.blt r.top q.first || Nat.blt q.last r.target) = true := by
  decide +kernel

theorem ne_of_isBlank {c d : Char} (blank : isBlank c = true) (letter : isBlank d = false) :
    c ≠ d := by
  intro same
  rw [same, letter] at blank
  cases blank

/-- A blank is its own lowercase form, is not cased, and is not passed over in the search for a cased
letter. -/
theorem caseless_of_isBlank {c : Char} (blank : isBlank c = true) :
    IsLow c ∧ isCased c = false ∧ isCaseIgnorable c = false := by
  obtain ⟨r, among, start, stop⟩ := CodeRange.exists_of_covers blank
  have code : c.toNat ∈ List.range' r.first (r.last + 1 - r.first) := by
    rw [List.mem_range'_1]
    omega
  have facts := List.all_eq_true.mp (List.all_eq_true.mp caseless_blankRanges r among) _ code
  simp only [Bool.and_eq_true, Bool.not_eq_true', Nat.beq_eq] at facts
  obtain ⟨⟨fixed, uncased⟩, counts⟩ := facts
  have plain : c ≠ 'İ' := ne_of_isBlank blank (by decide)
  exact ⟨isLow_of_map plain fixed, uncased, counts⟩

theorem eq_of_mem_lowerChar {c d : Char} (mem : d ∈ lowerChar c) (blank : isBlank d = true) :
    d = c := by
  rcases lowerChar_cases c with same | dotted | ⟨d', mapped, r, among, k, within, _, code⟩
  · rw [same] at mem
    exact List.mem_singleton.mp mem
  · have letters : isBlank 'i' = false ∧ isBlank '\u0307' = false := by decide
    simp only [dotted, List.mem_cons, List.not_mem_nil, or_false] at mem
    rcases mem with first | second
    · exact absurd first (ne_of_isBlank blank letters.1)
    · exact absurd second (ne_of_isBlank blank letters.2)
  · rw [mapped, List.mem_singleton] at mem
    subst mem
    obtain ⟨q, among', start, stop⟩ := CodeRange.exists_of_covers blank
    have apart := List.all_eq_true.mp
      (List.all_eq_true.mp caseRanges_apart_blankRanges r among) q among'
    simp only [CaseRange.top, Bool.or_eq_true, Nat.blt_eq] at apart
    omega

theorem lowerChar_ne_nil (c : Char) : lowerChar c ≠ [] := by
  unfold lowerChar
  split <;> simp

theorem lowercaseAfter_ne_nil {before cs : List Char} (some : cs ≠ []) :
    lowercaseAfter before cs ≠ [] := by
  cases cs with
  | nil => exact absurd rfl some
  | cons c rest =>
    rw [lowercaseAfter]
    split
    · simp
    · simp [lowerChar_ne_nil]

theorem mem_of_mem_lowercaseAfter {before cs : List Char} {d : Char}
    (mem : d ∈ lowercaseAfter before cs) (blank : isBlank d = true) : d ∈ cs := by
  induction cs generalizing before with
  | nil => cases mem
  | cons c rest ih =>
    rw [lowercaseAfter, List.mem_append] at mem
    rcases mem with here | later
    · split at here
      · have other : d ≠ 'ς' := ne_of_isBlank blank (by decide)
        exact absurd (List.mem_singleton.mp here) other
      · rw [eq_of_mem_lowerChar here blank]
        exact List.mem_cons_self ..
    · exact List.mem_cons_of_mem _ (ih later)

section Blank

variable {c : Char} (blank : isBlank c = true)

include blank

/-- The search for a cased letter ends at a blank. -/
theorem startsCased_append_blank (cs rest : List Char) :
    startsCased (cs ++ c :: rest) = startsCased cs := by
  obtain ⟨_, uncased, counts⟩ := caseless_of_isBlank blank
  induction cs with
  | nil => simp [startsCased, uncased, counts]
  | cons d cs ih => simp only [List.cons_append, startsCased, ih]

/-- What stands in front of a blank makes no difference behind it. -/
theorem lowercaseAfter_blank (before rest cs : List Char) :
    lowercaseAfter (before ++ c :: rest) cs = lowercaseAfter before cs := by
  induction cs generalizing before with
  | nil => rfl
  | cons d cs ih =>
    have more := ih (d :: before)
    rw [List.cons_append] at more
    rw [lowercaseAfter, lowercaseAfter, isFinalSigma, isFinalSigma,
      startsCased_append_blank blank, more]

/-- A blank parts a text in two, each of which is lowercased by itself. -/
theorem lowercaseAfter_append_blank (before front back : List Char) :
    lowercaseAfter before (front ++ c :: back) =
      lowercaseAfter before front ++ c :: lowercase back := by
  induction front generalizing before with
  | nil =>
    have low : lowerChar c = [c] := (caseless_of_isBlank blank).1
    have small : c ≠ 'Σ' := ne_of_isBlank blank (by decide)
    have here : lowercaseAfter before (c :: back) = c :: lowercaseAfter (c :: before) back := by
      rw [lowercaseAfter, if_neg (fun capital => small capital.1), low, List.singleton_append]
    have afresh : lowercaseAfter (c :: before) back = lowercase back :=
      lowercaseAfter_blank blank [] before back
    rw [List.nil_append, here, afresh]
    rfl
  | cons d front ih =>
    rw [List.cons_append, lowercaseAfter, lowercaseAfter, isFinalSigma, isFinalSigma,
      startsCased_append_blank blank, ih, List.append_assoc]

end Blank

theorem stretches_lowercase (cs : List Char) :
    stretches (lowercase cs) = (stretches cs).map lowercase := by
  induction size : cs.length using Nat.strongRecOn generalizing cs with
  | ind n ih =>
    by_cases parted : ∃ c ∈ cs, isBlank c = true
    · obtain ⟨c, mem, blank⟩ := parted
      obtain ⟨front, back, rfl⟩ := List.append_of_mem mem
      rw [List.length_append, List.length_cons] at size
      have first := ih front.length (by omega) front rfl
      have last := ih back.length (by omega) back rfl
      rw [lowercase] at first
      rw [lowercase, lowercaseAfter_append_blank blank, stretches_append_blank blank,
        stretches_append_blank blank, first, last, List.map_append]
    · have solid : ∀ c ∈ cs, isBlank c = false := by simpa using parted
      by_cases some : cs = []
      · rw [some]
        rfl
      · have some' : lowercase cs ≠ [] := lowercaseAfter_ne_nil some
        have solid' : ∀ c ∈ lowercase cs, isBlank c = false := by
          intro c mem
          rw [Bool.eq_false_iff]
          intro blank
          exact parted ⟨c, mem_of_mem_lowercaseAfter mem blank, blank⟩
        rw [stretches_solid some solid, stretches_solid some' solid', List.map_singleton]

theorem words_eq_map (line : String) :
    words line = (Word.split line).map fun w => String.ofList (lowercase w.text.toList) := by
  have parts : (Word.split line).map Word.chars = stretches line.toList :=
    Word.chars_splitFrom 0 line.toList
  rw [words, normalize, String.toList_ofList, stretches_lowercase, stretches_trimLineEnd, ← parts]
  simp [Word.text, Function.comp_def]

/-- It makes no difference whether a line is lowercased as a whole or word by word. A word is read in
the same way wherever it stands, whatever stands around it. -/
theorem words_lowercased :
    (∀ line, (Word.split (normalize line)).map Word.text =
      (Word.split line).map fun w => String.ofList (lowercase w.text.toList)) ∧
    ∀ line line' (i j : Nat),
      (Word.split line)[i]?.map Word.text = (Word.split line')[j]?.map Word.text →
      (Word.split (normalize line))[i]?.map Word.text =
        (Word.split (normalize line'))[j]?.map Word.text := by
  have alone : ∀ line, (Word.split (normalize line)).map Word.text =
      (Word.split line).map fun w => String.ofList (lowercase w.text.toList) := by
    intro line
    rw [map_text_split, words_eq_map]
  refine ⟨alone, ?_⟩
  intro line line' i j same
  have here : ∀ line (i : Nat), (Word.split (normalize line))[i]?.map Word.text =
      ((Word.split line)[i]?.map Word.text).map fun text => String.ofList (lowercase text.toList) := by
    intro line i
    rw [← List.getElem?_map, alone, List.getElem?_map, Option.map_map]
    rfl
  rw [here, here, same]

/-- A word that ends with a capital sigma, first on its line and last on its line. -/
def leading : String := "ΔΣ add 1"

def trailing : String := "PRINT\u3000ΔΣ"

theorem words_lowercased_sigma :
    (Word.split leading)[0]?.map Word.text = (Word.split trailing)[1]?.map Word.text ∧
    (Word.split (normalize leading))[0]?.map Word.text =
      (Word.split (normalize trailing))[1]?.map Word.text ∧
    (Word.split (normalize leading)).map Word.text = ["δς", "add", "1"] := by
  have same : (Word.split leading)[0]?.map Word.text = (Word.split trailing)[1]?.map Word.text := by
    decide +kernel
  have first := words_lowercased.1 leading
  have alone : ((Word.split leading).map fun w => String.ofList (lowercase w.text.toList)) =
      ["δς", "add", "1"] := by decide +kernel
  exact ⟨same, words_lowercased.2 leading trailing 0 1 same, first.trans alone⟩

end RegisterCalculator.Text
