import RegisterCalculator.Store.Lemmas

namespace RegisterCalculator

/-- A register under evaluation. One that waits for the value of another register remembers the
operation and its own value from before it began to wait. -/
structure Frame (α : Type) where
  register : Nat
  awaiting : Option (Operation × α)
  deriving DecidableEq

namespace Frame

variable {α : Type} [Accumulator α]

def enter (register : Nat) : Frame α := ⟨register, none⟩

/-- A frame that waits folds the value handed back into the one it remembers, whatever its register
has come to hold in the meantime. -/
def resume (f : Frame α) (returned : α) (s : Store α) : Store α :=
  match f.awaiting with
  | none => s
  | some (op, lhs) => s.setValue f.register (Accumulator.apply op lhs returned)

end Frame

/-- An evaluation under way. The frame on top of the stack runs; `returned` is what the last
register to finish handed back. -/
structure Machine (α : Type) where
  store : Store α
  diagnostics : Array Diagnostic
  stack : List (Frame α)
  returned : α

namespace Machine

variable {α : Type} [Accumulator α]

def start (store : Store α) (diagnostics : Array Diagnostic) (id : Nat) : Machine α :=
  ⟨store, diagnostics, [Frame.enter id], Accumulator.zero⟩

/-- Runs an instruction of the register at `id`, above the frames in `below`. A literal is folded
in at once; a register is entered first; a name that nothing bears is reported and passed over. -/
def perform (store : Store α) (diagnostics : Array Diagnostic) (id : Nat) (below : List (Frame α))
    (returned : α) (i : Instruction) : Machine α :=
  match i.operand with
  | .literal x =>
    let value := Accumulator.apply i.operation (store.value id) (Accumulator.ofLiteral x)
    ⟨store.setValue id value, diagnostics, Frame.enter id :: below, returned⟩
  | .register name =>
    match store.find? name with
    | some operand =>
      let waiting := ⟨id, some (i.operation, store.value id)⟩
      ⟨store, diagnostics, Frame.enter operand :: waiting :: below, returned⟩
    | none =>
      let diagnostic := ⟨store.name id, .registerNotFound name⟩
      ⟨store, diagnostics.push diagnostic, Frame.enter id :: below, returned⟩

/-- The frame on top takes in the value it waits for and runs its next instruction. When there is
none it hands its value back and leaves. -/
def step (m : Machine α) : Machine α :=
  match m with
  | ⟨store, diagnostics, [], returned⟩ => ⟨store, diagnostics, [], returned⟩
  | ⟨store, diagnostics, frame :: below, returned⟩ =>
    let resumed := frame.resume returned store
    match resumed.pending frame.register with
    | [] => ⟨resumed, diagnostics, below, resumed.value frame.register⟩
    | i :: rest =>
      perform (resumed.setPending frame.register rest) diagnostics frame.register below returned i

/-- An instruction that still is to run can open one frame, and each frame has to be left. -/
def potential (m : Machine α) : Nat := 2 * m.store.pendingTotal + m.stack.length

theorem measure_perform (store : Store α) (diagnostics : Array Diagnostic) (id : Nat)
    (below : List (Frame α)) (returned : α) (i : Instruction) :
    let m := perform store diagnostics id below returned i
    m.store.pendingTotal = store.pendingTotal ∧ m.stack.length ≤ below.length + 2 := by
  unfold perform
  split
  · simp
  · split <;> simp

/-- A step closes a frame and leaves the queues as they are, or it spends an instruction and opens
one frame at most. -/
theorem measure_step (m : Machine α) (running : m.stack ≠ []) :
    m.step.store.pendingTotal = m.store.pendingTotal ∧ m.step.stack.length + 1 = m.stack.length ∨
    m.step.store.pendingTotal + 1 = m.store.pendingTotal ∧
      m.step.stack.length ≤ m.stack.length + 1 := by
  obtain ⟨store, diagnostics, stack, returned⟩ := m
  cases stack with
  | nil => exact absurd rfl running
  | cons frame below =>
    have kept : (frame.resume returned store).pendingTotal = store.pendingTotal := by
      unfold Frame.resume
      split <;> simp
    simp only [step]
    split
    · exact .inl ⟨kept, rfl⟩
    · next i rest waits =>
      have spent := Store.pendingTotal_setPending waits
      obtain ⟨same, height⟩ := measure_perform
        ((frame.resume returned store).setPending frame.register rest)
        diagnostics frame.register below returned i
      refine .inr ⟨?_, height⟩
      rw [same, spent, kept]

theorem potential_step_lt (m : Machine α) (running : m.stack ≠ []) :
    m.step.potential < m.potential := by
  have spends := measure_step m running
  simp only [potential]
  omega

/-- Steps until no frame is left. Every step lowers the potential, so cycles end as well. -/
def run (m : Machine α) : Machine α :=
  if m.stack.isEmpty then m else run m.step
termination_by m.potential
decreasing_by
  rename_i running
  exact potential_step_lt m (by simpa using running)

end Machine

end RegisterCalculator
