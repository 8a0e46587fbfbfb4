import RegisterCalculator.Proofs.Evaluation
import RegisterCalculator.Proofs.Termination

namespace RegisterCalculator

namespace Machine

variable {α : Type} [Accumulator α]

/-- The engine that a frame on top works on: it has taken in the value that it waits for. -/
def resumed (frame : Frame α) (m : Machine α) : Engine α :=
  ⟨frame.resume m.returned m.store, m.diagnostics⟩

@[simp] theorem pending_resumed (frame : Frame α) (m : Machine α) (id : Nat) :
    (resumed frame m).store.pending id = m.store.pending id := pending_resume ..

/-- The ways in which a machine with a frame on top takes a step. -/
inductive Move (m : Machine α) (frame : Frame α) (below : List (Frame α)) : Prop where
  | leaves (empty : m.store.pending frame.register = [])
    (event : m.event? = some (.leave frame.register ((resumed frame m).store.value frame.register)))
    (next : m.step = of (resumed frame m) below ((resumed frame m).store.value frame.register))
  | literal (op : Operation) (x : Int64) (rest : List Instruction)
    (waits : m.store.pending frame.register = ⟨op, .literal x⟩ :: rest)
    (event : m.event? = some (.take frame.register ⟨op, .literal x⟩))
    (next : m.step = of (((resumed frame m).setPending frame.register rest).setValue frame.register
        (Accumulator.apply op ((resumed frame m).store.value frame.register)
          (Accumulator.ofLiteral x)))
      (.enter frame.register :: below) m.returned)
  | missing (op : Operation) (name : String) (rest : List Instruction)
    (waits : m.store.pending frame.register = ⟨op, .register name⟩ :: rest)
    (absent : m.store.find? name = none)
    (event : m.event? = some (.take frame.register ⟨op, .register name⟩))
    (next : m.step = of (((resumed frame m).setPending frame.register rest).report
      frame.register name) (.enter frame.register :: below) m.returned)
  | entered (op : Operation) (name : String) (operand : Nat) (rest : List Instruction)
    (waits : m.store.pending frame.register = ⟨op, .register name⟩ :: rest)
    (found : m.store.find? name = some operand)
    (event : m.event? = some (.take frame.register ⟨op, .register name⟩))
    (next : m.step = of ((resumed frame m).setPending frame.register rest)
      (.enter operand ::
        ⟨frame.register, some (op, (resumed frame m).store.value frame.register)⟩ :: below)
      m.returned)

theorem step_of_stack {m : Machine α} {frame : Frame α} {below : List (Frame α)}
    (stack : m.stack = frame :: below) :
    m.step = (of (resumed frame m) (.enter frame.register :: below) m.returned).step ∧
    m.event? = (of (resumed frame m) (.enter frame.register :: below) m.returned).event? := by
  obtain ⟨store, diagnostics, _, returned⟩ := m
  obtain rfl := stack
  exact ⟨rfl, rfl⟩

theorem find?_resumed (frame : Frame α) (m : Machine α) (name : String) :
    (resumed frame m).store.find? name = m.store.find? name := by
  unfold resumed Frame.resume
  split <;> rfl

theorem move {m : Machine α} {frame : Frame α} {below : List (Frame α)}
    (stack : m.stack = frame :: below) : Move m frame below := by
  obtain ⟨step, event⟩ := step_of_stack stack
  have same := pending_resumed frame m frame.register
  cases waits : m.store.pending frame.register with
  | nil =>
    rw [waits] at same
    exact .leaves waits (event.trans (event?_drained same)) (step.trans (step_drained same))
  | cons i rest =>
    rw [waits] at same
    rw [event?_waits same] at event
    obtain ⟨op, operand⟩ := i
    cases operand with
    | literal x => exact .literal op x rest waits event (step.trans (step_literal same))
    | register name =>
      have names := find?_resumed frame m name
      cases found : m.store.find? name with
      | none =>
        rw [found] at names
        exact .missing op name rest waits found event (step.trans (step_missing same names))
      | some operand =>
        rw [found] at names
        exact .entered op name operand rest waits found event
          (step.trans (step_entered same names))

theorem step_of_done {m : Machine α} (done : m.stack = []) : m.step = m := by
  obtain ⟨store, diagnostics, _, returned⟩ := m
  obtain rfl := done
  rfl

theorem run_step (m : Machine α) : m.step.run = m.run := by
  cases stack : m.stack with
  | nil => rw [step_of_done stack]
  | cons frame below => rw [run.eq_def m, if_neg (by simp [stack])]

theorem run_iterate (n : Nat) (m : Machine α) : (step^[n] m).run = m.run := by
  induction n with
  | zero => rfl
  | succ n ih => rw [Function.iterate_succ_apply', run_step, ih]

theorem size_step (m : Machine α) : m.step.store.size = m.store.size := by
  cases stack : m.stack with
  | nil => rw [step_of_done stack]
  | cons frame below =>
    have same : (resumed frame m).store.size = m.store.size := size_resume ..
    cases move stack with
    | leaves _ _ next => simp [next, of, same]
    | literal _ _ _ _ _ next => simp [next, of, same]
    | missing _ _ _ _ _ _ next => simp [next, of, same]
    | entered _ _ _ _ _ _ _ next => simp [next, of, same]

theorem size_iterate (n : Nat) (m : Machine α) : (step^[n] m).store.size = m.store.size := by
  induction n with
  | zero => rfl
  | succ n ih => rw [Function.iterate_succ_apply', size_step, ih]

theorem pending_iterate_eq_nil {m : Machine α} {id : Nat} (empty : m.store.pending id = [])
    (n : Nat) : (step^[n] m).store.pending id = [] := by
  induction n with
  | zero => exact empty
  | succ n ih =>
    have spent := pending_step (step^[n] m) id
    rw [ih] at spent
    rw [Function.iterate_succ_apply']
    exact (List.append_eq_nil_iff.mp spent.symm).2

/-- What is pending no more has been taken off the queue. -/
theorem exists_take {m : Machine α} {id n : Nat} {i : Instruction} (waits : i ∈ m.store.pending id)
    (empty : (step^[n] m).store.pending id = []) :
    ∃ k < n, (step^[k] m).event? = some (.take id i) := by
  induction n generalizing m with
  | zero =>
    rw [Function.iterate_zero, id_eq] at empty
    simp [empty] at waits
  | succ n ih =>
    rw [pending_step] at waits
    rcases List.mem_append.mp waits with now | later
    · have takes : .take id i ∈ m.event? := Option.mem_toList.mp (mem_taken.mp now)
      exact ⟨0, Nat.zero_lt_succ n, takes⟩
    · rw [Function.iterate_succ_apply] at empty
      obtain ⟨k, lt, takes⟩ := ih later empty
      refine ⟨k + 1, Nat.succ_lt_succ lt, ?_⟩
      rwa [Function.iterate_succ_apply]

theorem taken_between {m : Machine α} {id a b : Nat} (le : a ≤ b) {i : Instruction}
    (waits : i ∈ (step^[a] m).store.pending id) (empty : (step^[b] m).store.pending id = []) :
    ∃ k, a ≤ k ∧ k < b ∧ (step^[k] m).event? = some (.take id i) := by
  rw [← Nat.sub_add_cancel le, Function.iterate_add_apply] at empty
  obtain ⟨k, within, takes⟩ := exists_take waits empty
  rw [← Function.iterate_add_apply] at takes
  exact ⟨k + a, by omega, by omega, takes⟩

/-- Right above the frames in `base` stands a frame of the register at `id`. -/
def Above (id : Nat) (base : List (Frame α)) (m : Machine α) : Prop :=
  ∃ upper awaiting, m.stack = upper ++ ⟨id, awaiting⟩ :: base

/-- A frame of the register at `id` has left the stack down to `base`. -/
structure Left (id : Nat) (base : List (Frame α)) (m : Machine α) : Prop where
  stack : m.stack = base
  returned : m.returned = m.store.value id
  drained : m.store.pending id = []

/-- The frame on top leaves, or it stays and has a frame above it at most. Then the top waits for
nothing yet. -/
theorem left_or_entered {m : Machine α} {frame : Frame α} {below : List (Frame α)}
    (stack : m.stack = frame :: below) :
    (m.event? = some (.leave frame.register m.step.returned) ∧ Left frame.register below m.step) ∨
    ∃ id rest, m.step.stack = .enter id :: rest ∧ Above frame.register below m.step := by
  cases move stack with
  | leaves empty event next =>
    left
    rw [event, next]
    exact ⟨rfl, rfl, rfl, (pending_resumed frame m frame.register).trans empty⟩
  | literal _ _ _ _ _ next =>
    rw [next]
    exact .inr ⟨_, _, rfl, [], none, rfl⟩
  | missing _ _ _ _ _ _ next =>
    rw [next]
    exact .inr ⟨_, _, rfl, [], none, rfl⟩
  | entered _ _ operand _ _ _ _ next =>
    rw [next]
    exact .inr ⟨_, _, rfl, [.enter operand], _, rfl⟩

theorem left_or_above_of_stack {m : Machine α} {frame : Frame α} {below : List (Frame α)}
    (stack : m.stack = frame :: below) :
    Left frame.register below m.step ∨ Above frame.register below m.step := by
  rcases left_or_entered stack with ⟨_, left⟩ | ⟨_, _, _, above⟩
  · exact .inl left
  · exact .inr above

/-- A frame stays where it is until nothing is above it, its register is drained and its value is
handed back. -/
theorem above_step {id : Nat} {base : List (Frame α)} {m : Machine α} (h : Above id base m) :
    Left id base m.step ∨ Above id base m.step := by
  obtain ⟨upper, awaiting, stack⟩ := h
  cases upper with
  | nil => exact left_or_above_of_stack stack
  | cons frame upper =>
    right
    rcases left_or_above_of_stack stack with left | ⟨upper', awaiting', stack'⟩
    · exact ⟨upper, awaiting, left.stack⟩
    · exact ⟨upper' ++ ⟨frame.register, awaiting'⟩ :: upper, awaiting, by simpa using stack'⟩

theorem Above.leaves {id : Nat} {base : List (Frame α)} {m : Machine α} (h : Above id base m) :
    ∃ n, (∀ k ≤ n, Above id base (step^[k] m)) ∧ Left id base (step^[n + 1] m) := by
  induction m using run.induct with
  | case1 m done =>
    obtain ⟨upper, awaiting, stack⟩ := h
    simp [stack] at done
  | case2 m _ ih =>
    rcases above_step h with left | above
    · exact ⟨0, by simpa using h, left⟩
    · obtain ⟨n, stays, left⟩ := ih above
      refine ⟨n + 1, ?_, by rwa [Function.iterate_succ_apply]⟩
      intro k le
      cases k with
      | zero => exact h
      | succ k =>
        rw [Function.iterate_succ_apply]
        exact stays k (by omega)

end Machine

end RegisterCalculator
