import RegisterCalculator.Text.Lowercase

namespace RegisterCalculator.Text

namespace CaseRange

def top (r : CaseRange) : Nat := r.target + (r.last - r.first)

/-- Two ranges pass each other by when one maps to every other code point and the other is made up
of those between. -/
def interleaves (r q : CaseRange) : Bool :=
  (r.step == 2 || r.first == r.last) && q.step == 2 && (r.target + q.first) % 2 == 1

/-- Whether an ascending list of ranges leaves alone what a range maps to. -/
def spares (r : CaseRange) : List CaseRange → Bool
  | [] => true
  | q :: qs => Nat.blt r.top q.first || (Nat.blt q.last r.target || r.interleaves q) && r.spares qs

def writes (r : CaseRange) : Bool :=
  Nat.blt r.top 0x130 || Nat.blt 0x130 r.target && Nat.blt r.top 0xD800 ||
    Nat.blt 0xDFFF r.target && Nat.blt r.top 0x110000

theorem spares_caseRanges : (caseRanges.all fun r => r.writes && r.spares caseRanges) = true := by
  decide +kernel

theorem map_of_spares {r : CaseRange} {rs : List CaseRange} (spares : r.spares rs = true) {d : Nat}
    (within : d ≤ r.last - r.first) (inStep : d % r.step = 0) :
    map (r.target + d) rs = r.target + d := by
  induction rs with
  | nil => rfl
  | cons q qs ih =>
    simp only [CaseRange.spares, top, interleaves, Bool.or_eq_true, Bool.and_eq_true, Nat.blt_eq,
      beq_iff_eq] at spares
    rw [map]
    split
    · rfl
    · next reached =>
      rcases spares with beyond | ⟨apart, rest⟩
      · omega
      · split
        · exact ih rest
        · next inside =>
          rcases apart with before | ⟨⟨every, other⟩, odd⟩
          · omega
          · have even : d % 2 = 0 := by
              rcases every with two | single
              · rwa [two] at inStep
              · omega
            rw [other, if_neg (by omega)]

theorem lands {r : CaseRange} (among : r ∈ caseRanges) {k : Nat} (within : k ≤ r.last - r.first) :
    (r.target + k).isValidChar ∧ r.target + k ≠ 0x130 := by
  have facts := List.all_eq_true.mp spares_caseRanges r among
  simp only [writes, top, Bool.or_eq_true, Bool.and_eq_true, Nat.blt_eq] at facts
  rw [Nat.isValidChar]
  omega

theorem map_cases (code : Nat) (rs : List CaseRange) :
    map code rs = code ∨
    ∃ r ∈ rs, ∃ d ≤ r.last - r.first, d % r.step = 0 ∧ map code rs = r.target + d := by
  induction rs with
  | nil => exact .inl rfl
  | cons q qs ih =>
    rw [map]
    split
    · exact .inl rfl
    · split
      · rcases ih with same | ⟨r, mem, mapped⟩
        · exact .inl same
        · exact .inr ⟨r, List.mem_cons_of_mem _ mem, mapped⟩
      · split
        · next inStep =>
          exact .inr ⟨q, List.mem_cons_self .., code - q.first, by omega, inStep, rfl⟩
        · exact .inl rfl

end CaseRange

def IsLow (c : Char) : Prop := lowerChar c = [c]

instance (c : Char) : Decidable (IsLow c) := inferInstanceAs (Decidable (_ = _))

theorem isLow_of_map {c : Char} (plain : c ≠ 'İ')
    (fixed : CaseRange.map c.toNat caseRanges = c.toNat) : IsLow c := by
  rw [IsLow, lowerChar, if_neg plain, fixed, Char.ofNat_toNat]

/-- The lowercase form of a character is the character itself, or it is the form of the capital
dotted I, or some range maps to it. -/
theorem lowerChar_cases (c : Char) :
    lowerChar c = [c] ∨ lowerChar c = ['i', '\u0307'] ∨
    ∃ d, lowerChar c = [d] ∧ ∃ r ∈ caseRanges, ∃ k ≤ r.last - r.first, k % r.step = 0 ∧
      d.toNat = r.target + k := by
  by_cases dotted : c = 'İ'
  · exact .inr (.inl (by rw [lowerChar, if_pos dotted]))
  · rw [lowerChar, if_neg dotted]
    rcases CaseRange.map_cases c.toNat caseRanges with same | ⟨r, among, k, within, inStep, mapped⟩
    · exact .inl (by rw [same, Char.ofNat_toNat])
    · have valid := (CaseRange.lands among within).1
      have code : (Char.ofNat (r.target + k)).toNat = r.target + k := by
        rw [Char.ofNat, dif_pos valid]
        rfl
      rw [mapped]
      exact .inr (.inr ⟨_, rfl, r, among, k, within, inStep, code⟩)

/-- The lowercase form of a character is in lowercase. -/
theorem isLow_of_mem_lowerChar {c d : Char} (mem : d ∈ lowerChar c) : IsLow d := by
  rcases lowerChar_cases c with same | dotted | ⟨d', mapped, r, among, k, within, inStep, code⟩
  · rw [same, List.mem_singleton] at mem
    rwa [mem]
  · have both : IsLow 'i' ∧ IsLow '\u0307' := by decide
    simp only [dotted, List.mem_cons, List.not_mem_nil, or_false] at mem
    rcases mem with rfl | rfl
    · exact both.1
    · exact both.2
  · rw [mapped, List.mem_singleton] at mem
    subst mem
    have facts := List.all_eq_true.mp CaseRange.spares_caseRanges r among
    rw [Bool.and_eq_true] at facts
    apply isLow_of_map
    · intro dotted
      have same := congrArg Char.toNat dotted
      rw [code] at same
      exact (CaseRange.lands among within).2 same
    · rw [code, CaseRange.map_of_spares facts.2 within inStep]

theorem isLow_of_mem_lowercaseAfter {before cs : List Char} {d : Char}
    (mem : d ∈ lowercaseAfter before cs) : IsLow d := by
  induction cs generalizing before with
  | nil => nomatch mem
  | cons c rest ih =>
    rw [lowercaseAfter, List.mem_append] at mem
    rcases mem with here | later
    · split at here
      · rw [List.mem_singleton] at here
        subst here
        decide
      · exact isLow_of_mem_lowerChar here
    · exact ih later

/-- What is in lowercase stays as it is. The neighbours of a character matter for a capital sigma
only. -/
theorem lowercaseAfter_of_isLow {before cs : List Char} (low : ∀ c ∈ cs, IsLow c) :
    lowercaseAfter before cs = cs := by
  induction cs generalizing before with
  | nil => rfl
  | cons c rest ih =>
    obtain ⟨here, later⟩ := List.forall_mem_cons.mp low
    have small : c ≠ 'Σ' := by
      rintro rfl
      revert here
      decide
    rw [lowercaseAfter, if_neg (fun capital => small capital.1), here, ih later]
    rfl

theorem lowercase_eq_self_iff {cs : List Char} : lowercase cs = cs ↔ ∀ c ∈ cs, IsLow c := by
  constructor
  · intro same c mem
    rw [← same] at mem
    exact isLow_of_mem_lowercaseAfter mem
  · exact fun low => lowercaseAfter_of_isLow low

theorem isLow_of_mem_normalize {line : String} {c : Char} (mem : c ∈ (normalize line).toList) :
    IsLow c := by
  rw [normalize, String.toList_ofList] at mem
  exact isLow_of_mem_lowercaseAfter mem

theorem trimLineEnd_of_last {cs : List Char} (last : ∀ c ∈ cs.getLast?, isLineEnd c = false) :
    trimLineEnd cs = cs := by
  have kept : cs.reverse.dropWhile isLineEnd = cs.reverse := by
    cases backwards : cs.reverse with
    | nil => rfl
    | cons c rest =>
      have final := last c (by simp [← List.head?_reverse, backwards])
      rw [List.dropWhile_cons_of_neg (by simp [final])]
  rw [trimLineEnd, kept, List.reverse_reverse]

theorem normalize_of_isLow {line : String} (low : ∀ c ∈ line.toList, IsLow c)
    (last : ∀ c ∈ line.toList.getLast?, isLineEnd c = false) : normalize line = line := by
  rw [normalize, trimLineEnd_of_last last, lowercase, lowercaseAfter_of_isLow low,
    String.ofList_toList]

end RegisterCalculator.Text
