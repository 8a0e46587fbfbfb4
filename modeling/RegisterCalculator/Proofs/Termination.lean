import Mathlib.Logic.Function.Iterate
import RegisterCalculator.Engine.Basic

namespace RegisterCalculator

namespace Machine

variable {α : Type} [Accumulator α]

/-- Every frame stands for a register that exists. -/
def Inside (m : Machine α) : Prop := ∀ f ∈ m.stack, f.register < m.store.size

instance (m : Machine α) : Decidable m.Inside := List.decidableBAll _ _

theorem height_step_le (m : Machine α) :
    m.step.stack.length + m.step.store.pendingTotal ≤ m.stack.length + m.store.pendingTotal := by
  by_cases done : m.stack = []
  · obtain ⟨store, diagnostics, stack, returned⟩ := m
    cases done
    exact Nat.le_refl _
  · have spends := measure_step m done
    omega

/-- Every frame beyond the first ones has been paid for by an instruction. -/
theorem height_iterate_le (n : Nat) (m : Machine α) :
    (step^[n] m).stack.length + (step^[n] m).store.pendingTotal ≤
      m.stack.length + m.store.pendingTotal := by
  induction n with
  | zero => exact Nat.le_refl _
  | succ n ih =>
    rw [Function.iterate_succ_apply']
    exact Nat.le_trans (height_step_le _) ih

theorem run_eq_iterate (m : Machine α) :
    ∃ n ≤ m.potential, (step^[n] m).stack = [] ∧ m.run = step^[n] m := by
  induction m using run.induct with
  | case1 m done =>
    refine ⟨0, Nat.zero_le _, ?_, ?_⟩
    · simpa using done
    · rw [run, if_pos done]
      rfl
  | case2 m running ih =>
    obtain ⟨n, within, empty, same⟩ := ih
    have less := potential_step_lt m (by simpa using running)
    refine ⟨n + 1, by omega, ?_, ?_⟩
    · rwa [Function.iterate_succ_apply]
    · rw [run, if_neg running, same, Function.iterate_succ_apply]

@[simp] theorem size_resume (f : Frame α) (returned : α) (s : Store α) :
    (f.resume returned s).size = s.size := by
  unfold Frame.resume
  split <;> simp

theorem inside_perform {store : Store α} {diagnostics : Array Diagnostic} {id : Nat}
    {below : List (Frame α)} {returned : α} {i : Instruction} (here : id < store.size)
    (inside : ∀ f ∈ below, f.register < store.size) :
    (perform store diagnostics id below returned i).Inside := by
  unfold perform
  split
  · simpa [Inside, Frame.enter] using ⟨here, inside⟩
  · split
    · next operand found =>
      simpa [Inside, Frame.enter] using ⟨Store.lt_size_of_find? found, here, inside⟩
    · simpa [Inside, Frame.enter] using ⟨here, inside⟩

theorem inside_step {m : Machine α} (inside : m.Inside) : m.step.Inside := by
  obtain ⟨store, diagnostics, stack, returned⟩ := m
  cases stack with
  | nil => exact inside
  | cons frame below =>
    obtain ⟨here, inside⟩ := List.forall_mem_cons.mp inside
    simp only [step]
    split
    · simpa [Inside] using inside
    · apply inside_perform
      · simpa using here
      · simpa using inside

theorem inside_iterate {m : Machine α} (inside : m.Inside) (n : Nat) : (step^[n] m).Inside := by
  induction n with
  | zero => exact inside
  | succ n ih =>
    rw [Function.iterate_succ_apply']
    exact inside_step ih

/-- However its registers name each other, a machine leaves its last frame after two steps for each
pending instruction and one for each frame it begins with, and never holds more frames than there
were frames and instructions. So every evaluation ends. -/
theorem iterate_ends (m : Machine α) (inside : m.Inside) :
    (∃ n ≤ 2 * m.store.pendingTotal + m.stack.length,
      (step^[n] m).stack = [] ∧ m.run = step^[n] m) ∧
    (∀ n, (step^[n] m).stack.length ≤ m.stack.length + m.store.pendingTotal ∧
      (step^[n] m).Inside) ∧
    ∀ (e : Engine α) (id : Nat), ∃ n ≤ 2 * e.store.pendingTotal + 1,
      let last := step^[n] (start e.store e.diagnostics id)
      last.stack = [] ∧ e.evaluate id = (last.returned, ⟨last.store, last.diagnostics⟩) := by
  refine ⟨run_eq_iterate m, ?_, ?_⟩
  · intro n
    have height := height_iterate_le n m
    exact ⟨by omega, inside_iterate inside n⟩
  · intro e id
    obtain ⟨n, within, empty, same⟩ := run_eq_iterate (start e.store e.diagnostics id)
    exact ⟨n, within, empty, by rw [← same]; rfl⟩

/-- `a` and `b` name each other and `a` names itself. Both are under evaluation more than once, with
values that no run would have saved. -/
def entangled : Machine Int64 :=
  let e := (Engine.push "a" ⟨.add, .register "b"⟩ Engine.empty).2
  let e := (e.push "a" ⟨.multiply, .register "a"⟩).2
  let e := (e.push "b" ⟨.subtract, .register "a"⟩).2
  ⟨e.reset.store, #[], [⟨0, some (.add, 5)⟩, ⟨1, none⟩, ⟨0, some (.multiply, 3)⟩, .enter 0], 9⟩

theorem iterate_ends_entangled :
    entangled.Inside ∧ (∃ n ≤ 10, (step^[n] entangled).stack = []) ∧
      ∀ n, (step^[n] entangled).stack.length ≤ 7 := by
  have inside : entangled.Inside := by decide +kernel
  have total : entangled.store.pendingTotal = 3 := by decide +kernel
  obtain ⟨⟨n, within, empty, -⟩, height, -⟩ := iterate_ends entangled inside
  rw [total] at within
  refine ⟨inside, ⟨n, within, empty⟩, fun n => ?_⟩
  have bound := (height n).1
  rwa [total] at bound

end Machine

end RegisterCalculator
