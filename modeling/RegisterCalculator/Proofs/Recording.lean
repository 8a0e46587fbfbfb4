import RegisterCalculator.Proofs.Image

namespace RegisterCalculator

namespace Engine

variable {α : Type}

/-- The same engine with more recorded before what it has recorded. -/
def prepend (earlier : Array Diagnostic) (e : Engine α) : Engine α :=
  ⟨e.store, earlier ++ e.diagnostics⟩

theorem store_drain (e : Engine α) : e.drain.2.store = e.store := rfl

theorem prepend_drain (e : Engine α) : e.drain.2.prepend e.diagnostics = e := by
  simp [prepend, drain]

theorem drain_prepend (earlier : Array Diagnostic) (e : Engine α) :
    (e.prepend earlier).drain.2 = e.drain.2 := rfl

theorem report_prepend (earlier : Array Diagnostic) (e : Engine α) (id : Nat) (name : String) :
    (e.prepend earlier).report id name = (e.report id name).prepend earlier := by
  simp only [prepend, report, Array.append_push]

end Engine

variable {α : Type} [Accumulator α]

/-- A visit does not look at what has been recorded. -/
theorem Evaluates.prepend (earlier : Array Diagnostic) {id : Nat} {e e' : Engine α}
    {events : List (Event α)} {value : α} (h : Evaluates id e events value e') :
    Evaluates id (e.prepend earlier) events value (e'.prepend earlier) := by
  induction h with
  | drained empty => exact .drained empty
  | literal waits _ ih => exact .literal waits ih
  | missing waits absent _ ih =>
    rw [← Engine.report_prepend] at ih
    exact .missing waits absent ih
  | entered waits found _ _ ihEnters ih => exact .entered waits found ihEnters ih

namespace Engine

theorem translation_prepend (earlier : Array Diagnostic) :
    Translation (prepend earlier : Engine α → Engine α) id where
  push register i e := rfl
  print register e := by
    have same : (e.prepend earlier).store = e.store := rfl
    cases found : e.store.find? register with
    | none =>
      rw [print_of_find?_eq_none found, print_of_find?_eq_none (same ▸ found)]
      rfl
    | some place =>
      have visit := (evaluates_evaluate place e.reset).prepend earlier
      have evaluate : (e.prepend earlier).reset.evaluate place = _ := evaluate_of_evaluates visit
      rw [print_of_find? found, print_of_find? (same ▸ found), evaluate]
      rfl

/-- The diagnostics that a line records, in their order. -/
def recorded (line : String) (e : Engine α) : List Diagnostic :=
  (e.execute line).2.diagnostics.toList.drop e.diagnostics.size

/-- What is recorded comes behind what was recorded before, and does not depend on it. -/
theorem diagnostics_execute (line : String) (e : Engine α) :
    (e.execute line).2.diagnostics.toList = e.diagnostics.toList ++ e.recorded line ∧
    (e.drain.2.execute line).2.diagnostics.toList = e.recorded line := by
  have same := (translation_prepend e.diagnostics).execute line e.drain.2
  rw [prepend_drain] at same
  have behind : (e.execute line).2.diagnostics.toList =
      e.diagnostics.toList ++ (e.drain.2.execute line).2.diagnostics.toList := by
    rw [same, prepend, Array.toList_append]
  have recorded : e.recorded line = (e.drain.2.execute line).2.diagnostics.toList := by
    rw [Engine.recorded, behind, List.drop_left' e.diagnostics.length_toList]
  exact ⟨by rw [recorded, behind], recorded.symm⟩

theorem follow_drain (lines : List String) (e : Engine α) :
    (e.drain.2.follow lines).store = (e.follow lines).store := by
  have same := (translation_prepend e.diagnostics).follow lines e.drain.2
  rw [prepend_drain] at same
  rw [same]
  rfl

theorem recorded_of_drained {e : Engine α} (drained : e.diagnostics = #[]) (line : String) :
    e.recorded line = (e.execute line).2.diagnostics.toList := by
  rw [recorded, drained]
  rfl

theorem recorded_drain (line : String) (e : Engine α) : e.drain.2.recorded line = e.recorded line :=
  (recorded_of_drained rfl line).trans (diagnostics_execute line e).2

theorem drain_execute (line : String) (e : Engine α) :
    (e.drain.2.execute line).2.drain.2 = (e.execute line).2.drain.2 := by
  have same := (translation_prepend e.diagnostics).execute line e.drain.2
  rw [prepend_drain] at same
  rw [same, drain_prepend]

theorem answers_drain (lines : List String) (e : Engine α) :
    (executeAll lines e.drain.2).map Prod.fst = (executeAll lines e).map Prod.fst := by
  have same := (translation_prepend e.diagnostics).executeAll lines e.drain.2
  rw [prepend_drain] at same
  simp [same, Function.comp_def, Outcome.map_id]

end Engine

end RegisterCalculator
