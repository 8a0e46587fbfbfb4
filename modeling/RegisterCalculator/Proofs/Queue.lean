import RegisterCalculator.Proofs.Passes

namespace RegisterCalculator

namespace Store

variable {α : Type}

def definition (s : Store α) (id : Nat) : List Instruction :=
  s.registers[id]?.elim [] (·.definition.toList)

theorem definition_append (s : Store α) (id r : Nat) (i : Instruction) (here : id < s.size) :
    (s.append id i).definition r = s.definition r ++ if id = r then [i] else [] := by
  rw [definition, getElem?_append]
  split
  · next same =>
    subst same
    simp [definition, Array.getElem?_eq_getElem here, Register.append]
  · simp [definition]

@[simp] theorem definition_ensure [Accumulator α] (s : Store α) (name : String) (r : Nat) :
    (s.ensure name).2.definition r = s.definition r := by
  rw [definition, getElem?_ensure]
  split
  · next here =>
    have beyond : s.registers[r]? = none := Array.getElem?_eq_none (Nat.le_of_eq here.2.symm)
    simp [definition, beyond, Register.new]
  · rfl

@[simp] theorem pending_resetAll (s : Store α) (r : Nat) :
    s.resetAll.pending r = s.definition r := by
  rw [pending, resetAll, Array.getElem?_map, definition]
  cases s.registers[r]? <;> rfl

@[simp] theorem definition_resetAll (s : Store α) (r : Nat) :
    s.resetAll.definition r = s.definition r := by
  rw [definition, resetAll, Array.getElem?_map, definition]
  cases s.registers[r]? <;> rfl

theorem SameText.definition_eq {s t : Store α} (h : s.SameText t) (r : Nat) :
    t.definition r = s.definition r := by
  have same := congrArg (·[r]?.elim [] Array.toList) h.definitions
  simp only [Array.getElem?_map, Option.elim_map] at same
  exact same

end Store

/-- A pass as one register sees it: the definition with which it began there, and the instructions
that have been run since. Both are empty before the first pass. -/
structure Pass where
  begun : List Instruction
  spent : List Instruction
  deriving DecidableEq

namespace Engine

variable {α : Type}

/-- A definition ends with what is pending, but for what joined it late. -/
def Queued (r : Nat) (late : List Instruction) (e : Engine α) : Prop :=
  ∃ front, e.store.definition r = front ++ e.store.pending r ++ late

variable [Accumulator α]

def added (r : Nat) (e : Engine α) : Call → List Instruction
  | .add register operation operand =>
    match Instruction.ofWords operation operand with
    | .ok i => if (e.push register i).1 = r then [i] else []
    | .error _ => []
  | .push register i => if (e.push register i).1 = r then [i] else []
  | _ => []

def events (e : Engine α) : Call → List (Event α)
  | .print register => (e.store.find? register).elim [] (e.reset.trace ·)
  | .evaluate id => e.trace id
  | _ => []

/-- The instructions that calls leave in the definition of a register and that joined it since the
last pass began, where some had joined it before the calls. -/
def late (r : Nat) (e : Engine α) (earlier : List Instruction) : List Call → List Instruction
  | [] => earlier
  | c :: calls =>
    late r (e.call c) (if e.beginsPass c then [] else earlier ++ e.added r c) calls

theorem definition_push (register : String) (i : Instruction) (e : Engine α) (r : Nat) :
    (e.push register i).2.store.definition r =
      e.store.definition r ++ if (e.push register i).1 = r then [i] else [] := by
  have here := e.store.lt_size_ensure register
  have appended := Store.definition_append _ _ r i here
  rw [Store.definition_ensure] at appended
  exact appended

theorem definition_evaluate (id : Nat) (e : Engine α) (r : Nat) :
    (e.evaluate id).2.store.definition r = e.store.definition r :=
  (evaluates_evaluate id e).advances.definition_eq r

omit [Accumulator α] in
theorem definition_reset (e : Engine α) (r : Nat) :
    e.reset.store.definition r = e.store.definition r := Store.definition_resetAll e.store r

omit [Accumulator α] in
theorem pending_reset (e : Engine α) (r : Nat) :
    e.reset.store.pending r = e.store.definition r := Store.pending_resetAll e.store r

theorem added_of_beginsPass {e : Engine α} {c : Call} (begins : e.beginsPass c = true) (r : Nat) :
    e.added r c = [] := by
  cases c with
  | print register => rfl
  | reset => rfl
  | add _ _ _ => simp [beginsPass] at begins
  | push _ _ => simp [beginsPass] at begins
  | evaluate _ => simp [beginsPass] at begins
  | drain => simp [beginsPass] at begins

/-- A definition grows at its end, by what a call adds, and never loses anything. -/
theorem definition_call (r : Nat) (e : Engine α) (c : Call) :
    (e.call c).store.definition r = e.store.definition r ++ e.added r c := by
  cases c with
  | add register operation operand =>
    simp only [call, add, added]
    cases Instruction.ofWords operation operand with
    | error fault => simp
    | ok i => exact definition_push register i e r
  | push register i => exact definition_push register i e r
  | print register =>
    cases found : e.store.find? register with
    | none => simp [call, added, print_of_find?_eq_none found]
    | some id =>
      simp [call, added, print_of_find? found, definition_evaluate, definition_reset]
  | evaluate id => simp [call, added, definition_evaluate]
  | reset => simp [call, added, definition_reset]
  | drain => exact (List.append_nil _).symm

/-- A queue is filled with the definition when a pass begins. It changes at its front only, by what
the machine takes from there. -/
theorem pending_call (r : Nat) (e : Engine α) (c : Call) :
    (if e.beginsPass c then e.store.definition r else e.store.pending r) =
      taken r (e.events c) ++ (e.call c).store.pending r := by
  cases c with
  | add register operation operand =>
    rcases add_cases register operation operand e with same | ⟨i, _, pushes⟩
    · simp [beginsPass, events, taken, call, same]
    · simp [beginsPass, events, taken, call, pushes]
  | push register i => simp [beginsPass, events, taken, call]
  | print register =>
    cases found : e.store.find? register with
    | none =>
      simp [beginsPass, events, taken, call, found, print_of_find?_eq_none found]
    | some id =>
      have queue := (evaluates_evaluate id e.reset).pending_eq_append r
      rw [pending_reset] at queue
      simpa [beginsPass, events, call, found, print_of_find? found] using queue
  | evaluate id => exact (evaluates_evaluate id e).pending_eq_append r
  | reset => exact (pending_reset e r).symm
  | drain => rfl

def passAfter (r : Nat) (e : Engine α) (p : Pass) (c : Call) : Pass :=
  let runs := taken r (e.events c)
  if e.beginsPass c then ⟨e.store.definition r, runs⟩ else ⟨p.begun, p.spent ++ runs⟩

/-- The pass that is under way after calls, where one was under way before them. -/
def passAfterAll (r : Nat) (e : Engine α) (p : Pass) : List Call → Pass
  | [] => p
  | c :: calls => passAfterAll r (e.call c) (e.passAfter r p c) calls

/-- What is pending in a register is what the pass began with and has not run, and its definition
has changed since only by what stands behind. -/
structure Isolated (r : Nat) (e : Engine α) (p : Pass) (late : List Instruction) : Prop where
  queue : p.begun = p.spent ++ e.store.pending r
  definition : e.store.definition r = p.begun ++ late

section Isolated

variable {r : Nat} {e : Engine α} {p : Pass} {earlier : List Instruction}

theorem Isolated.call (h : e.Isolated r p earlier) (c : Call) :
    (e.call c).Isolated r (e.passAfter r p c)
      (if e.beginsPass c then [] else earlier ++ e.added r c) := by
  have queue := pending_call r e c
  have definition := definition_call r e c
  cases begins : e.beginsPass c with
  | true =>
    rw [begins, if_pos rfl] at queue
    rw [added_of_beginsPass begins] at definition
    simp only [passAfter, begins, if_true]
    exact ⟨queue, definition⟩
  | false =>
    rw [begins, if_neg Bool.false_ne_true] at queue
    simp only [passAfter, begins, Bool.false_eq_true, if_false]
    refine ⟨?_, ?_⟩
    · rw [h.queue, queue, List.append_assoc]
    · rw [definition, h.definition, List.append_assoc]

theorem Isolated.callAll (h : e.Isolated r p earlier) (calls : List Call) :
    (e.callAll calls).Isolated r (passAfterAll r e p calls) (late r e earlier calls) := by
  induction calls generalizing e p earlier with
  | nil => exact h
  | cons c calls ih => exact ih (h.call c)

theorem Queued.callAll (h : e.Queued r earlier) (calls : List Call) :
    (e.callAll calls).Queued r (late r e earlier calls) := by
  obtain ⟨front, parts⟩ := h
  have isolated : e.Isolated r ⟨front ++ e.store.pending r, front⟩ earlier := ⟨rfl, parts⟩
  have after := isolated.callAll calls
  exact ⟨_, by rw [after.definition, after.queue]⟩

end Isolated

/-- What is pending in a register is the end of its definition, but for the instructions that joined
the definition since the last pass began: those stand behind. So the queue is a suffix of the
definition as long as there are none. -/
theorem pending_before_late (calls : List Call) (r : Nat) :
    let e := (empty : Engine α).callAll calls
    let behind := late r (empty : Engine α) [] calls
    (∃ front, e.store.definition r = front ++ e.store.pending r ++ behind) ∧
    (behind = [] → e.store.pending r <:+ e.store.definition r) := by
  intro e behind
  have fresh : (empty : Engine α).Queued r [] := ⟨[], rfl⟩
  obtain ⟨front, parts⟩ : e.Queued r behind := fresh.callAll calls
  refine ⟨⟨front, parts⟩, ?_⟩
  intro none
  rw [none, List.append_nil] at parts
  exact ⟨front, parts.symm⟩

theorem pending_before_late_elsewhere :
    let calls : List Call :=
      [.add "a" "add" "1", .print "a", .add "a" "subtract" "b", .reset, .add "b" "add" "3"]
    let e := (empty : Engine Int64).callAll calls
    late 0 (empty : Engine Int64) [] calls = [] ∧
    e.store.pending 0 = [⟨.add, .literal 1⟩, ⟨.subtract, .register "b"⟩] ∧
    e.store.pending 0 <:+ e.store.definition 0 := by
  intro calls e
  have none : late 0 (empty : Engine Int64) [] calls = [] := by decide +kernel
  have pending : e.store.pending 0 = [⟨.add, .literal 1⟩, ⟨.subtract, .register "b"⟩] := by
    decide +kernel
  exact ⟨none, pending, (pending_before_late calls 0).2 none⟩

/-- An instruction that joins a definition while another is pending stands behind it, and waits for
the next pass. So a queue need not be a suffix of its definition. -/
theorem pending_not_suffix :
    let e := (empty : Engine Int64).callAll
      [.add "a" "add" "1", .reset, .add "a" "add" "2"]
    e.store.pending 0 = [⟨.add, .literal 1⟩] ∧
    e.store.definition 0 = [⟨.add, .literal 1⟩, ⟨.add, .literal 2⟩] ∧
    ¬ e.store.pending 0 <:+ e.store.definition 0 := by
  intro e
  have pending : e.store.pending 0 = [⟨.add, .literal 1⟩] := by decide +kernel
  have definition : e.store.definition 0 = [⟨.add, .literal 1⟩, ⟨.add, .literal 2⟩] := by
    decide +kernel
  rw [pending, definition]
  exact ⟨rfl, rfl, by decide⟩

end Engine

end RegisterCalculator
