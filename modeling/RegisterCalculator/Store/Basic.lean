import RegisterCalculator.Register
import Std.Data.TreeMap.Lemmas

namespace RegisterCalculator

/-- Registers in the order of their creation. A register is known by its place in that order, which
never changes, and is found by its name. -/
structure Store (α : Type) where
  registers : Array (Register α)
  index : Std.TreeMap String Nat
  /-- The index leads from a name to the one place that bears it. -/
  index_getElem? : ∀ name id,
    index[name]? = some id ↔ registers[id]?.map Register.name = some name

namespace Store

variable {α : Type}

def empty : Store α := ⟨#[], ∅, by simp⟩

def size (s : Store α) : Nat := s.registers.size

def find? (s : Store α) (name : String) : Option Nat := s.index[name]?

def find (s : Store α) (name : String) : Except Fault Nat :=
  match s.find? name with
  | some id => .ok id
  | none => .error (.registerNotFound name)

theorem find?_eq_some_iff (s : Store α) (name : String) (id : Nat) :
    s.find? name = some id ↔ s.registers[id]?.map Register.name = some name :=
  s.index_getElem? name id

/-- Changes one register, which keeps its name. Where there is none nothing happens. -/
def modify (id : Nat) (f : Register α → Register α) (keeps : ∀ r, (f r).name = r.name) :
    Store α → Store α
  | ⟨registers, index, found⟩ => ⟨registers.modify id f, index, fun name place => by
      rw [found, Array.getElem?_modify]
      split
      · next h =>
        subst h
        simp [Function.comp_def, keeps]
      · rfl⟩

def push (r : Register α) : (s : Store α) → s.find? r.name = none → Store α
  | ⟨registers, index, found⟩, free =>
    let id := registers.size
    ⟨registers.push r, index.insert r.name id, fun name place => by
      have vacant : ∀ id, registers[id]?.map Register.name ≠ some r.name := fun id h => by
        rw [← found] at h
        exact absurd (free.symm.trans h) (by simp)
      rw [Std.TreeMap.getElem?_insert, Array.getElem?_push]
      by_cases here : place = registers.size
      · subst here
        simp only [if_pos]
        by_cases same : r.name = name
        · simp [same, id]
        · simp [same, found]
      · simp only [here, if_false]
        by_cases same : r.name = name
        · subst same
          simp [vacant place, Ne.symm here, id]
        · simp [same, found]⟩

/-- The place of the register with a name. A name that is free gets a new register. -/
def ensure [Accumulator α] (s : Store α) (name : String) : Nat × Store α :=
  match free : s.find? name with
  | some id => (id, s)
  | none => (s.size, s.push (Register.new name) free)

def resetAll : Store α → Store α
  | ⟨registers, index, found⟩ => ⟨registers.map Register.reset, index, fun name id => by
      rw [found, Array.getElem?_map]
      simp [Function.comp_def, Register.reset]⟩

/-! What stands at a place. A place without a register has no instructions, the value zero and no
name. -/

def pending (s : Store α) (id : Nat) : List Instruction := s.registers[id]?.elim [] Register.pending

def value [Accumulator α] (s : Store α) (id : Nat) : α :=
  s.registers[id]?.elim Accumulator.zero Register.value

def name (s : Store α) (id : Nat) : String := s.registers[id]?.elim "" Register.name

def append (s : Store α) (id : Nat) (i : Instruction) : Store α :=
  s.modify id (·.append i) fun _ => rfl

def reset (s : Store α) (id : Nat) : Store α := s.modify id Register.reset fun _ => rfl

def setValue (s : Store α) (id : Nat) (value : α) : Store α :=
  s.modify id ({ · with value }) fun _ => rfl

def setPending (s : Store α) (id : Nat) (pending : List Instruction) : Store α :=
  s.modify id ({ · with pending }) fun _ => rfl

/-- The number of instructions that are still to run. -/
def pendingTotal (s : Store α) : Nat := (s.registers.toList.flatMap Register.pending).length

end Store

end RegisterCalculator
