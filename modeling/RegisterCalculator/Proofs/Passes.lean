import RegisterCalculator.Proofs.Reach

namespace RegisterCalculator

/-- What can be asked of an engine, questions that change nothing set aside. -/
inductive Call where
  | add (register operation operand : String)
  | push (register : String) (i : Instruction)
  | print (register : String)
  | evaluate (id : Nat)
  | reset
  | drain

namespace Engine

variable {α : Type} [Accumulator α]

def call (e : Engine α) : Call → Engine α
  | .add register operation operand => (e.add register operation operand).2
  | .push register i => (e.push register i).2
  | .print register => (e.print register).2
  | .evaluate id => (e.evaluate id).2
  | .reset => e.reset
  | .drain => e.drain.2

def callAll (e : Engine α) (calls : List Call) : Engine α := calls.foldl call e

/-- A print begins a pass if it finds its register, and a reset always does. -/
def beginsPass (e : Engine α) : Call → Bool
  | .print register => (e.store.find? register).isSome
  | .reset => true
  | _ => false

/-- Calls none of which begins a pass when its turn comes. -/
def withinPass (e : Engine α) : List Call → Bool
  | [] => true
  | c :: calls => !e.beginsPass c && withinPass (e.call c) calls

theorem callAll_cons (e : Engine α) (c : Call) (calls : List Call) :
    e.callAll (c :: calls) = (e.call c).callAll calls := rfl

theorem evaluate_of_drained {e : Engine α} {r : Nat} (empty : e.store.pending r = []) :
    e.evaluate r = (e.store.value r, e) := evaluate_of_evaluates (.drained empty)

section Push

variable (e : Engine α) (register : String) (i : Instruction) (r : Nat)

@[simp] theorem pending_push : (e.push register i).2.store.pending r = e.store.pending r := by
  simp [push]

@[simp] theorem value_push : (e.push register i).2.store.value r = e.store.value r := by
  simp [push]

end Push

theorem add_cases (register operation operand : String) (e : Engine α) :
    (e.add register operation operand).2 = e ∨
    ∃ i, Instruction.ofWords operation operand = .ok i ∧
      (e.add register operation operand).2 = (e.push register i).2 := by
  unfold add
  cases Instruction.ofWords operation operand with
  | error fault => exact .inl rfl
  | ok i => exact .inr ⟨i, rfl, rfl⟩

/-- Within a pass nothing fills the queue of a register, and what is not pending cannot be run. -/
theorem drained_call {e : Engine α} {c : Call} (within : e.beginsPass c = false) {r : Nat}
    (empty : e.store.pending r = []) :
    (e.call c).store.value r = e.store.value r ∧ (e.call c).store.pending r = [] := by
  cases c with
  | add register operation operand =>
    rcases add_cases register operation operand e with same | ⟨i, _, pushes⟩
    · simp [call, same, empty]
    · simp [call, pushes, empty]
  | push register i => simp [call, empty]
  | print register =>
    have absent : e.store.find? register = none := by simpa [beginsPass] using within
    simp [call, print_of_find?_eq_none absent, empty]
  | evaluate id =>
    have same := (evaluates_evaluate id e).getElem?_drained empty
    simp only [call, Store.value, Store.pending, same]
    exact ⟨trivial, empty⟩
  | reset => simp [beginsPass] at within
  | drain => exact ⟨rfl, empty⟩

theorem drained_callAll {e : Engine α} {calls : List Call} (within : e.withinPass calls = true)
    {r : Nat} (empty : e.store.pending r = []) :
    (e.callAll calls).store.value r = e.store.value r ∧
    (e.callAll calls).store.pending r = [] := by
  induction calls generalizing e with
  | nil => exact ⟨rfl, empty⟩
  | cons c calls ih =>
    simp only [withinPass, Bool.and_eq_true, Bool.not_eq_true'] at within
    obtain ⟨value, empty⟩ := drained_call within.1 empty
    rw [callAll_cons, ← value]
    exact ih within.2 empty

/-- An evaluation leaves its register drained, with the value that it gives. A drained register
keeps its value until the next pass begins, whatever is asked in between. -/
theorem drained_keeps_value (e : Engine α) :
    (∀ id, (e.evaluate id).2.store.value id = (e.evaluate id).1 ∧
      (e.evaluate id).2.store.pending id = []) ∧
    ∀ r, e.store.pending r = [] → ∀ calls, e.withinPass calls = true →
      (e.callAll calls).store.value r = e.store.value r ∧
      (e.callAll calls).store.pending r = [] ∧
      (e.callAll calls).evaluate r = (e.store.value r, e.callAll calls) := by
  constructor
  · intro id
    have h := evaluates_evaluate id e
    exact ⟨h.value_self, h.pending_self⟩
  · intro r empty calls within
    obtain ⟨value, empty⟩ := drained_callAll within empty
    have again := evaluate_of_drained empty
    rw [value] at again
    exact ⟨value, empty, again⟩

/-- `a` has been evaluated in this pass. `b` has not, and it names `a` and itself. -/
def halfway : Engine Int64 :=
  let e := (push "a" ⟨.add, .literal 4⟩ empty).2
  let e := (e.push "b" ⟨.add, .register "a"⟩).2
  let e := (e.push "b" ⟨.multiply, .register "b"⟩).2
  (e.reset.evaluate 0).2

theorem drained_keeps_value_halfway :
    let calls : List Call := [.push "a" ⟨.multiply, .register "b"⟩, .evaluate 1,
      .add "a" "divide" "2", .add "a" "add" "2", .print "nowhere", .drain]
    halfway.store.pending 0 = [] ∧ halfway.withinPass calls = true ∧
    ((halfway.callAll calls).evaluate 0).1 = 4 := by
  intro calls
  have drained : halfway.store.pending 0 = [] := by decide +kernel
  have within : halfway.withinPass calls = true := by decide +kernel
  have value : halfway.store.value 0 = 4 := by decide +kernel
  obtain ⟨_, _, again⟩ := (drained_keeps_value halfway).2 0 drained calls within
  exact ⟨drained, within, by rw [again, value]⟩

end Engine

end RegisterCalculator
