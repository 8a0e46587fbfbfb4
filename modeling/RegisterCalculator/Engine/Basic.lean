import RegisterCalculator.Machine

namespace RegisterCalculator

/-- The registers and the diagnostics that nobody has taken yet. -/
structure Engine (α : Type) where
  store : Store α
  diagnostics : Array Diagnostic

namespace Engine

variable {α : Type}

def empty : Engine α := ⟨Store.empty, #[]⟩

def reset : Engine α → Engine α
  | ⟨store, diagnostics⟩ => ⟨store.resetAll, diagnostics⟩

def drain : Engine α → Array Diagnostic × Engine α
  | ⟨store, diagnostics⟩ => (diagnostics, ⟨store, #[]⟩)

variable [Accumulator α]

/-- Appends an instruction to the definition of a register, which begins to exist if it must. -/
def push (register : String) (i : Instruction) : Engine α → Nat × Engine α
  | ⟨store, diagnostics⟩ =>
    let (id, store) := store.ensure register
    (id, ⟨store.append id i, diagnostics⟩)

/-- Appends an instruction given by its words. Bad words change nothing. -/
def add (register operation operand : String) (e : Engine α) : Except Fault Nat × Engine α :=
  match Instruction.ofWords operation operand with
  | .error fault => (.error fault, e)
  | .ok i =>
    let (id, e) := e.push register i
    (.ok id, e)

/-- Runs what is pending in a register, and in those it leads to, and gives its value. -/
def evaluate (id : Nat) : Engine α → α × Engine α
  | ⟨store, diagnostics⟩ =>
    let m := (Machine.start store diagnostics id).run
    (m.returned, ⟨m.store, m.diagnostics⟩)

/-- The value of a register after a new pass. A name that nothing bears begins no pass. -/
def print (register : String) (e : Engine α) : Except Fault α × Engine α :=
  match e.store.find register with
  | .error fault => (.error fault, e)
  | .ok id =>
    let (value, e) := e.reset.evaluate id
    (.ok value, e)

theorem print_of_find? {register : String} {id : Nat} {e : Engine α}
    (found : e.store.find? register = some id) :
    e.print register = (.ok (e.reset.evaluate id).1, (e.reset.evaluate id).2) := by
  simp [print, Store.find, found]

theorem print_of_find?_eq_none {register : String} {e : Engine α}
    (absent : e.store.find? register = none) :
    e.print register = (.error (.registerNotFound register), e) := by
  simp [print, Store.find, absent]

def valueOf (register : String) (e : Engine α) : Except Fault α :=
  (e.store.find register).map e.store.value

end Engine

end RegisterCalculator
