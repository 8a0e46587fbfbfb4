import RegisterCalculator.Proofs.Frames

namespace RegisterCalculator

namespace Machine

variable {α : Type} [Accumulator α]

/-- A step has a frame wait, right below a new one: its register gave an instruction that names the
register at `operand`, and the frame saves the value that its register holds. -/
structure Begins (m : Machine α) (frame : Frame α) (below : List (Frame α)) (op : Operation)
    (lhs : α) (operand : Nat) : Prop where
  takes : ∃ name, m.event? = some (.take frame.register ⟨op, .register name⟩) ∧
    m.store.find? name = some operand
  saves : frame.awaiting = some (op, lhs)
  value : m.step.store.value frame.register = lhs
  stack : m.step.stack = .enter operand :: frame :: below

theorem covered_before_step {m : Machine α} {above below : List (Frame α)} {frame : Frame α}
    (some : above ≠ []) (stack : m.step.stack = above ++ frame :: below) :
    (∃ above' ≠ [], m.stack = above' ++ frame :: below) ∨
    ∃ op lhs operand, Begins m frame below op lhs operand := by
  obtain ⟨first, above, rfl⟩ := List.exists_cons_of_ne_nil some
  cases before : m.stack with
  | nil => simp [step_of_done before, before] at stack
  | cons top rest =>
    cases move before with
    | leaves _ _ next =>
      have same : rest = first :: above ++ frame :: below := by simpa [next, of] using stack
      exact .inl ⟨top :: first :: above, by simp, by simp [same]⟩
    | literal _ _ _ _ _ next =>
      obtain ⟨_, same⟩ : _ ∧ rest = above ++ frame :: below := by simpa [next, of] using stack
      exact .inl ⟨top :: above, by simp, by simp [same]⟩
    | missing _ _ _ _ _ _ next =>
      obtain ⟨_, same⟩ : _ ∧ rest = above ++ frame :: below := by simpa [next, of] using stack
      exact .inl ⟨top :: above, by simp, by simp [same]⟩
    | entered op name operand _ _ found event next =>
      rw [next] at stack
      obtain ⟨_, same⟩ := List.cons.inj stack
      cases above with
      | nil =>
        obtain ⟨rfl, rfl⟩ := List.cons.inj same
        refine .inr ⟨op, _, operand, ⟨name, event, found⟩, rfl, ?_, by rw [next]; rfl⟩
        simp [next, of]
      | cons second above =>
        obtain ⟨_, same⟩ := List.cons.inj same
        exact .inl ⟨top :: above, by simp, by simp [same]⟩

/-- Every frame below the top has begun to wait for the frame above it, which has stayed there. -/
theorem exists_begins {store : Store α} {diagnostics : Array Diagnostic} {id n : Nat}
    {above below : List (Frame α)} {frame : Frame α} (some : above ≠ [])
    (stack : (step^[n] (start store diagnostics id)).stack = above ++ frame :: below) :
    ∃ op lhs operand, ∃ first < n,
      Begins (step^[first] (start store diagnostics id)) frame below op lhs operand ∧
      ∀ k, first < k → k ≤ n →
        Above operand (frame :: below) (step^[k] (start store diagnostics id)) := by
  induction n generalizing above with
  | zero =>
    have single := congrArg List.length stack
    have positive := List.length_pos_iff.mpr some
    simp only [Function.iterate_zero, id_eq, start, List.length_append, List.length_cons,
      List.length_nil] at single
    omega
  | succ n ih =>
    rw [Function.iterate_succ_apply'] at stack
    rcases covered_before_step some stack with ⟨above', some', before⟩ | ⟨op, lhs, operand, begins⟩
    · obtain ⟨op, lhs, operand, first, earlier, begins, stays⟩ := ih some' before
      refine ⟨op, lhs, operand, first, by omega, begins, ?_⟩
      intro k after le
      rcases Nat.lt_or_eq_of_le le with lt | rfl
      · exact stays k after (by omega)
      · rw [Function.iterate_succ_apply']
        rcases above_step (stays n earlier (Nat.le_refl n)) with left | stays
        · -- The frame has not left yet: there are more frames than those below it.
          have same := left.stack.symm.trans stack
          exact absurd (List.self_eq_append_left.mp same) some
        · exact stays
    · refine ⟨op, lhs, operand, n, Nat.lt_succ_self n, begins, ?_⟩
      intro k after le
      obtain rfl : k = n + 1 := by omega
      rw [Function.iterate_succ_apply']
      exact ⟨[], none, begins.stack⟩

theorem leaves_within {m : Machine α} {a b : Nat} {between base : List (Frame α)} {i j : Nat}
    (outer : Left a base (step^[i] m))
    (inner : ∀ k < j, Above b (between ++ base) (step^[k] m)) : j ≤ i := by
  apply Nat.le_of_not_lt
  intro lt
  obtain ⟨upper, awaiting, stack⟩ := inner i lt
  rw [outer.stack] at stack
  have length := congrArg List.length stack
  simp only [List.length_append, List.length_cons] at length
  omega

/-- In the run of a machine, a frame of the register at `r` waits for the one at `operand`: from the
step after `first`, which saves the value of `r`, to the step `last`, in which the operand's frame
leaves and hands back the value of its register. -/
structure Waits (m : Machine α) (r : Nat) (op : Operation) (lhs : α) (below : List (Frame α))
    (operand first last : Nat) : Prop where
  takes : ∃ name, (step^[first] m).event? = some (.take r ⟨op, .register name⟩) ∧
    (step^[first] m).store.find? name = some operand
  saves : (step^[first + 1] m).store.value r = lhs
  stays : ∀ k, first < k → k < last →
    Above operand (⟨r, some (op, lhs)⟩ :: below) (step^[k] m)
  left : Left operand (⟨r, some (op, lhs)⟩ :: below) (step^[last] m)

theorem exists_waits {store : Store α} {diagnostics : Array Diagnostic} {id n : Nat}
    {above below : List (Frame α)} {r : Nat} {op : Operation} {lhs : α} (some : above ≠ [])
    (stack : (step^[n] (start store diagnostics id)).stack =
      above ++ ⟨r, .some (op, lhs)⟩ :: below) :
    ∃ operand first last, first < n ∧ n < last ∧
      Waits (start store diagnostics id) r op lhs below operand first last := by
  obtain ⟨op', lhs', operand, first, earlier, begins, stays⟩ := exists_begins some stack
  obtain ⟨rfl, rfl⟩ := Prod.mk.inj (Option.some.inj begins.saves)
  obtain ⟨height, stands, left⟩ := (stays n earlier (Nat.le_refl n)).leaves
  simp only [← Function.iterate_add_apply] at stands left
  refine ⟨operand, first, height + 1 + n, earlier, by omega, begins.takes, ?_, ?_, left⟩
  · rw [Function.iterate_succ_apply']
    exact begins.value
  · intro k after before
    rcases Nat.lt_or_ge k n with lt | ge
    · exact stays k after (Nat.le_of_lt lt)
    · have above := stands (k - n) (by omega)
      rwa [Nat.sub_add_cancel ge] at above

namespace Waits

variable {m : Machine α} {r : Nat} {op : Operation} {lhs : α} {below : List (Frame α)}
  {operand first last : Nat} (h : Waits m r op lhs below operand first last)

include h

/-- A register with a frame above the one that waits is drained when that one resumes. -/
theorem pending_of_mem {above : List (Frame α)} {n : Nat} (earlier : n < last)
    (stack : (step^[n] m).stack = above ++ ⟨r, some (op, lhs)⟩ :: below)
    {f : Frame α} (mem : f ∈ above) : (step^[last] m).store.pending f.register = [] := by
  obtain ⟨upper, between, rfl⟩ := List.append_of_mem mem
  have stands : Above f.register (between ++ ⟨r, some (op, lhs)⟩ :: below) (step^[n] m) :=
    ⟨upper, f.awaiting, by simp [stack]⟩
  obtain ⟨height, stands, left⟩ := stands.leaves
  have same : step^[last] m = step^[last - n] (step^[n] m) := by
    rw [← Function.iterate_add_apply, Nat.sub_add_cancel (Nat.le_of_lt earlier)]
  have outer := h.left
  rw [same] at outer
  have within : height + 1 ≤ last - n := leaves_within outer fun k lt => stands k (by omega)
  have later : step^[last] m = step^[last - n - (height + 1)] (step^[height + 1] (step^[n] m)) := by
    rw [← Function.iterate_add_apply, Nat.sub_add_cancel within, same]
  rw [later]
  exact pending_iterate_eq_nil left.drained _

theorem lt_size : r < m.store.size := by
  obtain ⟨name, takes, _⟩ := h.takes
  have spent := pending_step (step^[first] m) r
  simp only [takes, Option.toList_some, taken, List.filterMap_cons, Event.taken?, if_true,
    List.filterMap_nil, List.singleton_append] at spent
  have here := Store.lt_size_of_pending spent
  rwa [size_iterate] at here

end Waits

theorem step_resumes {m : Machine α} {below : List (Frame α)} {r : Nat} {op : Operation} {lhs : α}
    (stack : m.stack = ⟨r, some (op, lhs)⟩ :: below) (here : r < m.store.size)
    (empty : m.store.pending r = []) :
    m.event? = some (.leave r (Accumulator.apply op lhs m.returned)) ∧
    m.step = ⟨m.store.setValue r (Accumulator.apply op lhs m.returned), m.diagnostics, below,
      Accumulator.apply op lhs m.returned⟩ := by
  have value : (resumed ⟨r, some (op, lhs)⟩ m).store.value r =
      Accumulator.apply op lhs m.returned := by
    change (m.store.setValue r (Accumulator.apply op lhs m.returned)).value r = _
    rw [Store.value_setValue _ _ _ _ here, if_pos rfl]
  cases move stack with
  | leaves _ event next =>
    rw [value] at event next
    exact ⟨event, next⟩
  | literal _ _ _ waits => simp [empty] at waits
  | missing _ _ _ waits => simp [empty] at waits
  | entered _ _ _ _ waits => simp [empty] at waits

end Machine

namespace Engine

open Machine

variable {α : Type} [Accumulator α]

/-- While a frame of the register at `r` waits, another frame of `r` stands above it. Then nothing
is pending in `r` when the first resumes. It folds what the operand hands back into the value of `r`
from before the wait, and hands this back at once. -/
theorem evaluate_reentered (e : Engine α) (id : Nat) {n : Nat} {above below : List (Frame α)}
    {r : Nat} {op : Operation} {lhs : α}
    (stack : (step^[n] (start e.store e.diagnostics id)).stack =
      above ++ ⟨r, some (op, lhs)⟩ :: below)
    (again : ∃ f ∈ above, f.register = r) :
    ∃ operand first last, first < n ∧ n < last ∧
      Waits (start e.store e.diagnostics id) r op lhs below operand first last ∧
      let m := step^[last] (start e.store e.diagnostics id)
      let result := Accumulator.apply op lhs (m.store.value operand)
      (∀ i ∈ (step^[first + 1] (start e.store e.diagnostics id)).store.pending r,
        ∃ k, first < k ∧ k < last ∧
          (step^[k] (start e.store e.diagnostics id)).event? = some (.take r i)) ∧
      m.store.pending r = [] ∧ m.event? = some (.leave r result) ∧
      m.step = ⟨m.store.setValue r result, m.diagnostics, below, result⟩ ∧
      m.step.store.value r = result ∧
      (below = [] → e.evaluate id = (result, ⟨m.store.setValue r result, m.diagnostics⟩)) := by
  obtain ⟨f, mem, rfl⟩ := again
  obtain ⟨operand, first, last, earlier, later, waits⟩ := exists_waits (List.ne_nil_of_mem mem) stack
  refine ⟨operand, first, last, earlier, later, waits, ?_⟩
  intro m result
  have here : f.register < m.store.size := by
    rw [size_iterate]
    exact waits.lt_size
  have empty : m.store.pending f.register = [] := waits.pending_of_mem later stack mem
  have folds := step_resumes waits.left.stack here empty
  rw [waits.left.returned] at folds
  obtain ⟨event, step⟩ : m.event? = _ ∧ m.step = _ := folds
  have between : first < last := Nat.lt_trans earlier later
  refine ⟨fun i pending => taken_between between pending empty, empty, event, step, ?_, ?_⟩
  · rw [step, Store.value_setValue _ _ _ _ here, if_pos rfl]
  · intro bottom
    have run : (start e.store e.diagnostics id).run = m.step.run := by
      rw [run_step, run_iterate]
    have done : m.step.run = m.step := by
      rw [Machine.run, if_pos (by simp [step, bottom])]
    rw [evaluate, run, done, step]

def crossed : Engine Int64 :=
  let e := (push "a" ⟨.add, .register "b"⟩ empty).2
  let e := (e.push "a" ⟨.add, .literal 10⟩).2
  (e.push "b" ⟨.add, .register "a"⟩).2.reset

/-- Within `b` the rest of `a` makes 10 of it. The frame at the bottom folds what `b` hands back into
the 0 that it has saved, and 10 is not counted twice. -/
theorem evaluate_reentered_crossed :
    (step^[2] (start crossed.store crossed.diagnostics 0)).stack =
      [.enter 0, ⟨1, some (.add, 0)⟩] ++ [⟨0, some (.add, 0)⟩] ∧
    ∃ last > 2, (step^[last] (start crossed.store crossed.diagnostics 0)).event? =
      some (.leave 0 10) := by
  have stack : (step^[2] (start crossed.store crossed.diagnostics 0)).stack =
      [.enter 0, ⟨1, some (.add, 0)⟩] ++ [⟨0, some (.add, 0)⟩] := by decide +kernel
  have value : (crossed.evaluate 0).1 = 10 := by decide +kernel
  obtain ⟨operand, first, last, _, later, _, _, _, event, _, _, result⟩ :=
    evaluate_reentered crossed 0 stack ⟨.enter 0, by simp, rfl⟩
  have folded : (crossed.evaluate 0).1 = Accumulator.apply .add 0 _ := congrArg Prod.fst (result rfl)
  rw [← folded, value] at event
  exact ⟨stack, last, later, event⟩

end Engine

end RegisterCalculator
