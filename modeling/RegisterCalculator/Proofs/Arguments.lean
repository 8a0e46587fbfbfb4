import RegisterCalculator.CommandLine

namespace RegisterCalculator

namespace Invocation

def IsFlag (argument : String) : Prop := argument.toList.head? = some '-'

instance : DecidablePred IsFlag := fun _ => inferInstanceAs (Decidable (_ = _))

/-- The argument at a place settles what all of them ask for: it asks for help, it is another flag,
or it is the second that is none. -/
def Settles (args : List String) (i : Nat) : Prop :=
  ∃ argument, args[i]? = some argument ∧
    (argument = "-h" ∨ argument = "--help" ∨ IsFlag argument ∨
      ¬ IsFlag argument ∧ (args.take i).countP (¬ IsFlag ·) = 1)

/-- What an argument that settles it asks for. -/
def settled (argument : String) : Except ArgumentError Invocation :=
  if argument = "-h" ∨ argument = "--help" then .ok help else .error (.unexpected argument)

theorem isFlag_of_help {argument : String} (helps : argument = "-h" ∨ argument = "--help") :
    IsFlag argument := by
  rcases helps with rfl | rfl <;> decide

theorem ofArgsAfter_flag {argument : String} (flag : IsFlag argument) (input : Option String)
    (rest : List String) : ofArgsAfter input (argument :: rest) = settled argument := by
  unfold IsFlag at flag
  simp only [ofArgsAfter, settled, flag, if_true]

theorem ofArgs_second {argument : String} (plain : ¬ IsFlag argument) (second : String)
    (rest : List String) : ofArgs (argument :: second :: rest) = settled second := by
  have after : ofArgs (argument :: second :: rest) =
      ofArgsAfter (some argument) (second :: rest) := by
    rw [ofArgs, ofArgsAfter, if_neg (mt isFlag_of_help plain),
      if_neg (show ¬ argument.toList.head? = some '-' from plain)]
  rw [after]
  by_cases flag : IsFlag second
  · exact ofArgsAfter_flag flag _ rest
  · rw [ofArgsAfter, settled, if_neg (mt isFlag_of_help flag), if_neg (mt isFlag_of_help flag),
      if_neg (show ¬ second.toList.head? = some '-' from flag)]

theorem ofArgs_operand {argument : String} (plain : ¬ IsFlag argument) :
    ofArgs [argument] = .ok (run (some argument)) := by
  rw [ofArgs, ofArgsAfter, if_neg (mt isFlag_of_help plain),
    if_neg (show ¬ argument.toList.head? = some '-' from plain)]
  rfl

theorem settles_zero {argument : String} {rest : List String} :
    Settles (argument :: rest) 0 ↔ IsFlag argument := by
  constructor
  · rintro ⟨first, here, settles⟩
    obtain rfl : argument = first := Option.some.inj here
    rcases settles with help | help | flag | ⟨_, count⟩
    · exact isFlag_of_help (.inl help)
    · exact isFlag_of_help (.inr help)
    · exact flag
    · simp at count
  · intro flag
    exact ⟨argument, rfl, .inr (.inr (.inl flag))⟩

theorem settles_one {argument second : String} {rest : List String} (plain : ¬ IsFlag argument) :
    Settles (argument :: second :: rest) 1 := by
  refine ⟨second, rfl, .inr (.inr ?_)⟩
  by_cases flag : IsFlag second
  · exact .inl flag
  · exact .inr ⟨flag, by simp [plain]⟩

theorem first_settles {args : List String} {i : Nat} (settles : Settles args i)
    (first : ∀ j < i, ¬ Settles args j) :
    (∃ argument rest, args = argument :: rest ∧ i = 0 ∧ IsFlag argument) ∨
    ∃ argument second rest, args = argument :: second :: rest ∧ i = 1 ∧ ¬ IsFlag argument := by
  match args with
  | [] =>
    obtain ⟨_, nowhere, _⟩ := settles
    simp at nowhere
  | argument :: rest =>
    by_cases flag : IsFlag argument
    · have zero : i = 0 := by
        apply Nat.eq_zero_of_not_pos
        exact fun later => first 0 later (settles_zero.mpr flag)
      exact .inl ⟨argument, rest, rfl, zero, flag⟩
    · have later : i ≠ 0 := by
        rintro rfl
        exact flag (settles_zero.mp settles)
      match rest with
      | [] =>
        obtain ⟨_, here, _⟩ := settles
        have bound := (List.getElem?_eq_some_iff.mp here).1
        simp only [List.length_singleton] at bound
        omega
      | second :: rest =>
        have one : i = 1 := by
          have le : i ≤ 1 := Nat.le_of_not_lt fun further => first 1 further (settles_one flag)
          omega
        exact .inr ⟨argument, second, rest, rfl, one, flag⟩

theorem ofArgs_of_settles {args : List String} {i : Nat} {argument : String}
    (here : args[i]? = some argument) (settles : Settles args i)
    (first : ∀ j < i, ¬ Settles args j) (later : List String) :
    ofArgs (args.take (i + 1) ++ later) = settled argument := by
  rcases first_settles settles first with ⟨flag, rest, rfl, rfl, dashed⟩ |
    ⟨plain, second, rest, rfl, rfl, undashed⟩
  · obtain rfl : flag = argument := Option.some.inj here
    exact ofArgsAfter_flag dashed none later
  · obtain rfl : second = argument := Option.some.inj here
    exact ofArgs_second undashed second later

theorem ofArgs_of_unsettled {args : List String} (unsettled : ∀ i, ¬ Settles args i) :
    args.length ≤ 1 ∧ ofArgs args = .ok (.run args.head?) := by
  match args with
  | [] => exact ⟨Nat.zero_le _, rfl⟩
  | [argument] =>
    have plain : ¬ IsFlag argument := mt settles_zero.mpr (unsettled 0)
    exact ⟨Nat.le_refl _, ofArgs_operand plain⟩
  | argument :: second :: rest =>
    have plain : ¬ IsFlag argument := mt settles_zero.mpr (unsettled 0)
    exact absurd (settles_one plain) (unsettled 1)

end Invocation

end RegisterCalculator
