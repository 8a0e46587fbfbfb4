import RegisterCalculator.Proofs.Reach
import RegisterCalculator.Proofs.Reentry

namespace RegisterCalculator

namespace Machine

variable {α : Type}

theorem Above.register_eq {id : Nat} {base : List (Frame α)} {m : Machine α} (h : Above id base m)
    {upper : List (Frame α)} {frame : Frame α} (stack : m.stack = upper ++ frame :: base) :
    frame.register = id := by
  obtain ⟨upper', awaiting, stack'⟩ := h
  have same : (upper ++ [frame]) ++ base = (upper' ++ [⟨id, awaiting⟩]) ++ base := by
    rw [List.append_assoc, List.append_assoc]
    exact stack.symm.trans stack'
  obtain ⟨-, last⟩ := List.append_inj' (List.append_cancel_right same) rfl
  rw [List.singleton_inj.mp last]

/-- The machine as it were if another value had been handed back last. -/
def handed (x : α) (m : Machine α) : Machine α := { m with returned := x }

/-- No frame on top waits for what is handed back. -/
def Idle (m : Machine α) : Prop := ∀ f ∈ m.stack.head?, f.awaiting = none

variable [Accumulator α]

/-- By step `n` of a run, a frame waits for the register at `operand`. In the step `first` its
register gave an instruction that names the operand, and a frame of the operand has been right above
it since. -/
def Awaits (m : Machine α) (n : Nat) (frame : Frame α) (below : List (Frame α)) (op : Operation)
    (lhs : α) (operand : Nat) : Prop :=
  ∃ first < n, Begins (step^[first] m) frame below op lhs operand ∧
    ∀ k, first < k → k ≤ n → Above operand (frame :: below) (step^[k] m)

theorem Awaits.saves {m : Machine α} {n : Nat} {frame : Frame α} {below : List (Frame α)}
    {op : Operation} {lhs : α} {operand : Nat} (h : Awaits m n frame below op lhs operand) :
    frame.awaiting = some (op, lhs) := by
  obtain ⟨_, _, begins, _⟩ := h
  exact begins.saves

theorem exists_awaits {store : Store α} {diagnostics : Array Diagnostic} {id n : Nat}
    {upper below : List (Frame α)} {above frame : Frame α}
    (stack : (step^[n] (start store diagnostics id)).stack = upper ++ above :: frame :: below) :
    ∃ op lhs, Awaits (start store diagnostics id) n frame below op lhs above.register := by
  have covered : (step^[n] (start store diagnostics id)).stack =
      (upper ++ [above]) ++ frame :: below := by simp [stack]
  obtain ⟨op, lhs, operand, first, earlier, begins, stays⟩ := exists_begins (by simp) covered
  obtain rfl := (stays n earlier (Nat.le_refl n)).register_eq stack
  exact ⟨op, lhs, first, earlier, begins, stays⟩

/-- At the end of a step a frame on top waits only if the one above it has just left. -/
theorem left_of_waiting {m : Machine α} {frame : Frame α} {below : List (Frame α)}
    (stack : m.step.stack = frame :: below) (waits : frame.awaiting ≠ none) :
    ∃ popped, m.stack = popped :: frame :: below ∧
      m.event? = some (.leave popped.register m.step.returned) ∧
      Left popped.register (frame :: below) m.step := by
  cases before : m.stack with
  | nil => simp [step_of_done before, before] at stack
  | cons popped rest =>
    rcases left_or_entered before with ⟨event, left⟩ | ⟨id, rest, entered, -⟩
    · obtain rfl : rest = frame :: below := left.stack.symm.trans stack
      exact ⟨popped, rfl, event, left⟩
    · obtain ⟨rfl, -⟩ := List.cons.inj (entered.symm.trans stack)
      exact absurd rfl waits

/-- In step `n` of a run the frame `popped` leaves, and the one below it, which has waited for its
register, comes to fold that register's value into the one that it has saved. -/
structure HandsOver (m : Machine α) (n : Nat) (popped frame : Frame α) (below : List (Frame α))
    (op : Operation) (lhs : α) : Prop where
  stack : (step^[n] m).stack = popped :: frame :: below
  event : (step^[n] m).event? = some (.leave popped.register (step^[n + 1] m).returned)
  awaits : Awaits m n frame below op lhs popped.register
  returned : (step^[n + 1] m).returned = (step^[n + 1] m).store.value popped.register
  drained : (step^[n + 1] m).store.pending popped.register = []
  folds : frame.resume (step^[n + 1] m).returned (step^[n + 1] m).store =
    (step^[n + 1] m).store.setValue frame.register
      (Accumulator.apply op lhs ((step^[n + 1] m).store.value popped.register))

theorem exists_handsOver {store : Store α} {diagnostics : Array Diagnostic} {id n : Nat}
    {frame : Frame α} {below : List (Frame α)} {op : Operation} {lhs : α}
    (stack : (step^[n] (start store diagnostics id)).stack = frame :: below)
    (waits : frame.awaiting = some (op, lhs)) :
    ∃ k popped, n = k + 1 ∧
      HandsOver (start store diagnostics id) k popped frame below op lhs := by
  cases n with
  | zero =>
    obtain ⟨rfl, -⟩ := List.cons.inj (show [Frame.enter id] = frame :: below from stack)
    simp [Frame.enter] at waits
  | succ k =>
    have after := stack
    rw [Function.iterate_succ_apply'] at after
    obtain ⟨popped, before, event, left⟩ := left_of_waiting after (by simp [waits])
    rw [← Function.iterate_succ_apply' step] at event left
    have covered : (step^[k] (start store diagnostics id)).stack = [] ++ popped :: frame :: below :=
      before
    obtain ⟨op', lhs', awaits⟩ := exists_awaits covered
    obtain ⟨rfl, rfl⟩ := Prod.mk.inj (Option.some.inj (awaits.saves.symm.trans waits))
    refine ⟨k, popped, rfl, before, event, awaits, left.returned, left.drained, ?_⟩
    rw [Frame.resume, waits, left.returned]

/-! What was handed back before a run makes no difference to it. -/

theorem perform_handed (x : α) (store : Store α) (diagnostics : Array Diagnostic) (id : Nat)
    (below : List (Frame α)) (returned : α) (i : Instruction) :
    perform store diagnostics id below x i =
        (perform store diagnostics id below returned i).handed x ∧
      (perform store diagnostics id below returned i).Idle := by
  unfold perform
  split
  · exact ⟨rfl, by simp [Idle, Frame.enter]⟩
  · split
    · exact ⟨rfl, by simp [Idle, Frame.enter]⟩
    · exact ⟨rfl, by simp [Idle, Frame.enter]⟩

/-- A frame on top that waits for nothing does not look at what was handed back. It leaves, and hands
back something else, or lets it be. -/
theorem step_handed {m : Machine α} (idle : m.Idle) (x : α) :
    (m.handed x).step = m.step ∨ (m.handed x).step = m.step.handed x ∧ m.step.Idle := by
  obtain ⟨store, diagnostics, stack, returned⟩ := m
  cases stack with
  | nil => exact .inr ⟨rfl, idle⟩
  | cons frame below =>
    obtain ⟨register, awaiting⟩ := frame
    obtain rfl : awaiting = none := idle _ rfl
    simp only [handed, step, Frame.resume]
    split
    · exact .inl rfl
    · exact .inr (perform_handed ..)

theorem iterate_handed {m : Machine α} (idle : m.Idle) (x : α) (n : Nat) :
    step^[n] (m.handed x) = step^[n] m ∨
      step^[n] (m.handed x) = (step^[n] m).handed x ∧ (step^[n] m).Idle := by
  induction n with
  | zero => exact .inr ⟨rfl, idle⟩
  | succ n ih =>
    simp only [Function.iterate_succ_apply']
    rcases ih with same | ⟨same, idle⟩
    · exact .inl (by rw [same])
    · rw [same]
      exact step_handed idle x

theorem idle_start (store : Store α) (diagnostics : Array Diagnostic) (id : Nat) :
    (start store diagnostics id).Idle := by
  simp [Idle, start, Frame.enter]

end Machine

namespace Engine

open Machine

variable {α : Type} [Accumulator α]

/-- A frame on top waits only if the one above it has left in the step before. Then what was handed
back is the value that the register of that one holds, with nothing pending, and nothing else is
ever folded: the zero that a run starts with could be any value. -/
theorem evaluate_hands_over (e : Engine α) (id : Nat) :
    let m := start e.store e.diagnostics id
    (∀ n upper above frame below,
      (step^[n] m).stack = upper ++ above :: frame :: below →
      ∃ op lhs, frame.awaiting = some (op, lhs) ∧
        Awaits m n frame below op lhs above.register) ∧
    (∀ n frame below op lhs,
      (step^[n] m).stack = frame :: below → frame.awaiting = some (op, lhs) →
      ∃ k popped, n = k + 1 ∧ HandsOver m k popped frame below op lhs) ∧
    (∀ x n, step^[n] (m.handed x) = step^[n] m ∨
      step^[n] (m.handed x) = (step^[n] m).handed x ∧ (step^[n] m).Idle) ∧
    (∀ x, (m.handed x).run = m.run) ∧
    (e.evaluate id).1 = (e.evaluate id).2.store.value id := by
  intro m
  have h := evaluates_evaluate id e
  have idle : m.Idle := idle_start e.store e.diagnostics id
  refine ⟨?_, fun _ _ _ _ _ => exists_handsOver, iterate_handed idle, ?_, h.value_self.symm⟩
  · intro n upper above frame below stack
    obtain ⟨op, lhs, awaits⟩ := exists_awaits stack
    exact ⟨op, lhs, awaits.saves, awaits⟩
  · intro x
    exact (h.run_enter [] x).1.trans (h.run_enter [] Accumulator.zero).1.symm

/-- In `b`, which waits for `a`, another frame of `a` makes 10 of it. This is what `b` adds to the 0
that it has saved. -/
theorem evaluate_hands_over_crossed :
    let m := start crossed.store crossed.diagnostics 0
    let b : Frame Int64 := ⟨1, some (.add, 0)⟩
    let a : Frame Int64 := ⟨0, some (.add, 0)⟩
    (step^[3] m).stack = [] ++ .enter 0 :: b :: [a] ∧ Awaits m 3 b [a] .add 0 0 ∧
    (step^[4] m).stack = b :: [a] ∧
    b.resume (step^[4] m).returned (step^[4] m).store = (step^[4] m).store.setValue 1 10 := by
  intro m b a
  have covered : (step^[3] m).stack = [] ++ .enter 0 :: b :: [a] := by decide +kernel
  have top : (step^[4] m).stack = b :: [a] := by decide +kernel
  have ten : (step^[4] m).returned = 10 := by decide +kernel
  obtain ⟨waiting, resuming, -⟩ := evaluate_hands_over crossed 0
  obtain ⟨op, lhs, saves, awaits⟩ := waiting 3 [] _ _ _ covered
  obtain ⟨rfl, rfl⟩ := Prod.mk.inj (Option.some.inj saves)
  obtain ⟨k, popped, four, hands⟩ := resuming 4 _ _ _ _ top rfl
  obtain rfl : k = 3 := by omega
  have folds := hands.folds
  rw [← hands.returned, ten] at folds
  rw [ten]
  exact ⟨covered, awaits, top, folds⟩

end Engine

end RegisterCalculator
