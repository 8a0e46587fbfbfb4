import RegisterCalculator.Proofs.Queue

namespace RegisterCalculator

namespace Engine

variable {α : Type} [Accumulator α]

theorem begun_passAfterAll {r : Nat} {e : Engine α} {p : Pass} {calls : List Call}
    (within : e.withinPass calls = true) : (passAfterAll r e p calls).begun = p.begun := by
  induction calls generalizing e p with
  | nil => rfl
  | cons c calls ih =>
    simp only [withinPass, Bool.and_eq_true, Bool.not_eq_true'] at within
    rw [passAfterAll, ih within.2]
    simp [passAfter, within.1]

/-- Passes are kept apart. The definition that a register had when the last pass began there is what
has been run since and what is pending, in this order. What joined it later is not run within the
pass, and is pending when the next one begins. -/
theorem pass_isolated (calls : List Call) (r : Nat) :
    let e := (empty : Engine α).callAll calls
    let p := passAfterAll r (empty : Engine α) ⟨[], []⟩ calls
    let joined := late r (empty : Engine α) [] calls
    p.begun = p.spent ++ e.store.pending r ∧
    e.store.definition r = p.begun ++ joined ∧
    (∀ more, e.withinPass more = true →
      (passAfterAll r e p more).begun = p.begun ∧ (passAfterAll r e p more).spent <+: p.begun) ∧
    ∀ c, e.beginsPass c = true →
      p.begun ++ joined = taken r (e.events c) ++ (e.call c).store.pending r := by
  intro e p joined
  have fresh : (empty : Engine α).Isolated r ⟨[], []⟩ [] := ⟨rfl, rfl⟩
  have now : e.Isolated r p joined := fresh.callAll calls
  refine ⟨now.queue, now.definition, ?_, ?_⟩
  · intro more within
    have begun : (passAfterAll r e p more).begun = p.begun := begun_passAfterAll within
    have queue := (now.callAll more).queue
    rw [begun] at queue
    exact ⟨begun, _, queue.symm⟩
  · intro c begins
    have queue := pending_call r e c
    rw [begins, if_pos rfl, now.definition] at queue
    exact queue

theorem pass_isolated_midway :
    let calls : List Call :=
      [.add "a" "add" "1", .add "b" "add" "a", .reset, .add "a" "multiply" "2"]
    let more : List Call := [.add "c" "add" "5", .evaluate 1]
    let e := (empty : Engine Int64).callAll calls
    let p := passAfterAll 0 (empty : Engine Int64) ⟨[], []⟩ calls
    e.withinPass more = true ∧ p = ⟨[⟨.add, .literal 1⟩], []⟩ ∧
    e.store.definition 0 = [⟨.add, .literal 1⟩, ⟨.multiply, .literal 2⟩] ∧
    passAfterAll 0 e p more = ⟨[⟨.add, .literal 1⟩], [⟨.add, .literal 1⟩]⟩ ∧
    (passAfterAll 0 e p more).spent <+: p.begun := by
  intro calls more e p
  have within : e.withinPass more = true := by decide +kernel
  have isolated := (pass_isolated (α := Int64) calls 0).2.2.1 more within
  exact ⟨within, by decide +kernel, by decide +kernel, by decide +kernel, isolated.2⟩

end Engine

end RegisterCalculator
