import RegisterCalculator.Engine.Line
import RegisterCalculator.Proofs.Recursion

namespace RegisterCalculator

/-- A translation of values that keeps literals and every operation. -/
structure Accumulator.Hom {α β : Type} [Accumulator α] [Accumulator β] (f : α → β) : Prop where
  ofLiteral : ∀ x, f (Accumulator.ofLiteral x) = Accumulator.ofLiteral x
  apply : ∀ op x y, f (Accumulator.apply op x y) = Accumulator.apply op (f x) (f y)

theorem Accumulator.Hom.zero {α β : Type} [Accumulator α] [Accumulator β] {f : α → β}
    (hom : Accumulator.Hom f) : f Accumulator.zero = Accumulator.zero :=
  hom.ofLiteral 0

/-! The same registers, answers and events with every value translated. Nothing else changes. -/

def Register.map {α β : Type} (f : α → β) (r : Register α) : Register β :=
  ⟨r.name, r.definition, r.pending, f r.value⟩

def Store.map {α β : Type} (f : α → β) : Store α → Store β
  | ⟨registers, index, found⟩ => ⟨registers.map (Register.map f), index, fun name id => by
      rw [found, Array.getElem?_map]
      simp [Function.comp_def, Register.map]⟩

def Engine.map {α β : Type} (f : α → β) (e : Engine α) : Engine β := ⟨e.store.map f, e.diagnostics⟩

def Outcome.map {α β : Type} (f : α → β) : Outcome α → Outcome β
  | .defined => .defined
  | .printed value => .printed (f value)
  | .skipped => .skipped
  | .quit => .quit

theorem Outcome.map_id {α : Type} : Outcome.map (id : α → α) = id := by
  funext outcome
  cases outcome <;> rfl

def Event.map {α β : Type} (f : α → β) : Event α → Event β
  | .take id i => .take id i
  | .leave id value => .leave id (f value)

namespace Engine

variable {α β : Type} [Accumulator α] [Accumulator β]

/-- A translation of engines, and of their values, that every command commutes with. -/
structure Translation (h : Engine α → Engine β) (f : α → β) : Prop where
  push : ∀ register i e, ((h e).push register i).2 = h (e.push register i).2
  print : ∀ register e,
    (h e).print register = ((e.print register).1.map f, h (e.print register).2)

namespace Translation

variable {h : Engine α → Engine β} {f : α → β} (commutes : Translation h f)

include commutes

theorem perform (c : Command) (e : Engine α) :
    (h e).perform c = ((e.perform c).1.map (Outcome.map f), h (e.perform c).2) := by
  cases c with
  | define register i =>
    simp only [Engine.perform, commutes.push]
    rfl
  | print register =>
    simp only [Engine.perform, commutes.print]
    cases (e.print register).1 <;> rfl
  | quit => rfl
  | blank => rfl

theorem execute (line : String) (e : Engine α) :
    (h e).execute line = ((e.execute line).1.map (Outcome.map f), h (e.execute line).2) := by
  unfold Engine.execute
  split
  · exact commutes.perform _ e
  · rfl

theorem executeAll (lines : List String) (e : Engine α) :
    Engine.executeAll lines (h e) =
      (Engine.executeAll lines e).map fun (answer, e) => (answer.map (Outcome.map f), h e) := by
  induction lines generalizing e with
  | nil => rfl
  | cons line rest ih => simp [Engine.executeAll, commutes.execute, ih]

theorem follow (lines : List String) (e : Engine α) : (h e).follow lines = h (e.follow lines) := by
  induction lines generalizing e with
  | nil => rfl
  | cons line lines ih =>
    have step : ((h e).execute line).2 = h (e.execute line).2 := by rw [commutes.execute]
    rw [follow_cons, follow_cons, step, ih]

end Translation

end Engine

namespace Store

variable {α β : Type} (f : α → β)

@[simp] theorem getElem?_map (s : Store α) (id : Nat) :
    (s.map f).registers[id]? = s.registers[id]?.map (Register.map f) := Array.getElem?_map

@[simp] theorem find?_map (s : Store α) (name : String) : (s.map f).find? name = s.find? name := rfl

@[simp] theorem find_map (s : Store α) (name : String) : (s.map f).find name = s.find name := rfl

@[simp] theorem size_map (s : Store α) : (s.map f).size = s.size := by
  simp [size, map]

@[simp] theorem pending_map (s : Store α) (id : Nat) : (s.map f).pending id = s.pending id := by
  rw [pending, getElem?_map]
  cases here : s.registers[id]? <;> simp [pending, here, Register.map]

@[simp] theorem name_map (s : Store α) (id : Nat) : (s.map f).name id = s.name id := by
  rw [name, getElem?_map]
  cases here : s.registers[id]? <;> simp [name, here, Register.map]

theorem modify_map {g : Register α → Register α} {h : Register β → Register β}
    (keeps : ∀ r, (g r).name = r.name) (keeps' : ∀ r, (h r).name = r.name)
    (same : ∀ r, h (r.map f) = (g r).map f) (s : Store α) (id : Nat) :
    (s.map f).modify id h keeps' = (s.modify id g keeps).map f := by
  apply ext
  · rfl
  · intro j
    rw [getElem?_modify, getElem?_map, getElem?_map, getElem?_modify]
    split
    · simp [Function.comp_def, same]
    · rfl

theorem setValue_map (s : Store α) (id : Nat) (value : α) :
    (s.map f).setValue id (f value) = (s.setValue id value).map f :=
  modify_map f _ _ (fun _ => rfl) s id

theorem setPending_map (s : Store α) (id : Nat) (pending : List Instruction) :
    (s.map f).setPending id pending = (s.setPending id pending).map f :=
  modify_map f _ _ (fun _ => rfl) s id

theorem append_map (s : Store α) (id : Nat) (i : Instruction) :
    (s.map f).append id i = (s.append id i).map f :=
  modify_map f _ _ (fun _ => rfl) s id

theorem resetAll_map (s : Store α) : (s.map f).resetAll = s.resetAll.map f := by
  apply ext
  · rfl
  · intro id
    simp [resetAll, map, Function.comp_def, Register.reset, Register.map]

theorem push_map (s : Store α) {r : Register α} {r' : Register β} (same : r.map f = r')
    (free : s.find? r.name = none) (free' : (s.map f).find? r'.name = none) :
    (s.map f).push r' free' = (s.push r free).map f := by
  subst same
  apply ext
  · simp [push, map, Register.map]
  · intro id
    simp [push, map]

variable {f} [Accumulator α] [Accumulator β]

theorem value_map (hom : Accumulator.Hom f) (s : Store α) (id : Nat) :
    (s.map f).value id = f (s.value id) := by
  rw [value, getElem?_map]
  cases here : s.registers[id]? <;> simp [value, here, Register.map, hom.zero]

theorem ensure_map (hom : Accumulator.Hom f) (s : Store α) (name : String) :
    (s.map f).ensure name = ((s.ensure name).1, (s.ensure name).2.map f) := by
  have new : (Register.new name : Register α).map f = Register.new name := by
    simp [Register.map, Register.new, hom.zero]
  unfold ensure
  split
  · next id found =>
    split
    · next id' found' => cases found.symm.trans found'; rfl
    · next free => cases found.symm.trans free
  · next free =>
    split
    · next id found => cases free.symm.trans found
    · next free' => exact Prod.ext (size_map f s) (push_map f s new free' free)

end Store

namespace Engine

variable {α β : Type} (f : α → β)

@[simp] theorem store_map (e : Engine α) : (e.map f).store = e.store.map f := rfl

theorem map_empty : (empty : Engine α).map f = empty := by
  simp [empty, map, Store.map, Store.empty]

theorem reset_map (e : Engine α) : (e.map f).reset = e.reset.map f := by
  simp [reset, map, Store.resetAll_map]

theorem setPending_map (e : Engine α) (id : Nat) (pending : List Instruction) :
    (e.map f).setPending id pending = (e.setPending id pending).map f := by
  simp [Engine.setPending, map, Store.setPending_map]

theorem setValue_map (e : Engine α) (id : Nat) (value : α) :
    (e.map f).setValue id (f value) = (e.setValue id value).map f := by
  simp [Engine.setValue, map, Store.setValue_map]

theorem report_map (e : Engine α) (id : Nat) (name : String) :
    (e.map f).report id name = (e.report id name).map f := by
  simp [Engine.report, map]

end Engine

variable {α β : Type} [Accumulator α] [Accumulator β] {f : α → β}

theorem Evaluates.map (hom : Accumulator.Hom f) {id : Nat} {e e' : Engine α}
    {events : List (Event α)} {value : α} (h : Evaluates id e events value e') :
    Evaluates id (e.map f) (events.map (Event.map f)) (f value) (e'.map f) := by
  induction h with
  | @drained id e empty =>
    simp only [List.map_singleton, Event.map, ← Store.value_map hom]
    exact .drained (by simpa using empty)
  | literal waits _ ih =>
    rw [← Engine.setValue_map, ← Engine.setPending_map, hom.apply, hom.ofLiteral,
      ← Store.value_map hom] at ih
    exact .literal (by simpa using waits) ih
  | missing waits absent _ ih =>
    rw [← Engine.report_map, ← Engine.setPending_map] at ih
    exact .missing (by simpa using waits) (by simpa using absent) ih
  | entered waits found _ _ ihEnters ih =>
    rw [← Engine.setPending_map] at ihEnters
    rw [← Engine.setValue_map, hom.apply, ← Store.value_map hom] at ih
    rw [List.map_cons, List.map_append]
    exact .entered (by simpa using waits) (by simpa using found) ihEnters ih

namespace Engine

theorem push_map (hom : Accumulator.Hom f) (register : String) (i : Instruction) (e : Engine α) :
    (e.map f).push register i = ((e.push register i).1, (e.push register i).2.map f) := by
  simp [push, map, Store.ensure_map hom, Store.append_map]

theorem evaluate_map (hom : Accumulator.Hom f) (id : Nat) (e : Engine α) :
    (e.map f).evaluate id = (f (e.evaluate id).1, (e.evaluate id).2.map f) :=
  evaluate_of_evaluates ((evaluates_evaluate id e).map hom)

theorem print_map (hom : Accumulator.Hom f) (register : String) (e : Engine α) :
    (e.map f).print register = ((e.print register).1.map f, (e.print register).2.map f) := by
  simp only [print, store_map, Store.find_map]
  split
  · rfl
  · rw [reset_map f, evaluate_map hom]
    rfl

theorem translation_map (hom : Accumulator.Hom f) : Translation (map f) f where
  push register i e := by rw [push_map hom]
  print := print_map hom

theorem executeAll_map (hom : Accumulator.Hom f) (lines : List String) (e : Engine α) :
    executeAll lines (e.map f) =
      (executeAll lines e).map fun (answer, e) => (answer.map (Outcome.map f), e.map f) :=
  (translation_map hom).executeAll lines e

end Engine

end RegisterCalculator
