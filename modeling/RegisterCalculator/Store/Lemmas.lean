import RegisterCalculator.Store.Basic

namespace RegisterCalculator.Store

variable {α : Type}

theorem ext {s t : Store α} (index : s.index = t.index)
    (registers : ∀ id : Nat, s.registers[id]? = t.registers[id]?) : s = t := by
  obtain ⟨registersS, indexS, foundS⟩ := s
  obtain ⟨registersT, indexT, foundT⟩ := t
  cases index
  cases Array.ext_getElem? registers
  rfl

theorem getElem?_modify (s : Store α) (id j : Nat) (f : Register α → Register α)
    (keeps : ∀ r, (f r).name = r.name) :
    (s.modify id f keeps).registers[j]? =
      if id = j then s.registers[j]?.map f else s.registers[j]? :=
  Array.getElem?_modify

theorem modify_of_le (s : Store α) (id : Nat) (f : Register α → Register α)
    (keeps : ∀ r, (f r).name = r.name) (beyond : s.size ≤ id) : s.modify id f keeps = s := by
  obtain ⟨registers, index, found⟩ := s
  simp only [modify, mk.injEq, and_true]
  apply Array.ext_getElem?
  intro j
  rw [Array.getElem?_modify]
  split
  · next same =>
    subst same
    simp [Array.getElem?_eq_none beyond]
  · rfl

theorem getElem?_setValue_of_ne (s : Store α) {id j : Nat} (value : α) (other : id ≠ j) :
    (s.setValue id value).registers[j]? = s.registers[j]? := by
  rw [setValue, getElem?_modify, if_neg other]

theorem getElem?_setPending_of_ne (s : Store α) {id j : Nat} (pending : List Instruction)
    (other : id ≠ j) : (s.setPending id pending).registers[j]? = s.registers[j]? := by
  rw [setPending, getElem?_modify, if_neg other]

theorem find?_injective {s : Store α} {a b : String} {id : Nat} (ha : s.find? a = some id)
    (hb : s.find? b = some id) : a = b := by
  rw [find?_eq_some_iff] at ha hb
  exact Option.some.inj (ha.symm.trans hb)

@[simp] theorem find?_modify (s : Store α) (id : Nat) (f : Register α → Register α)
    (keeps : ∀ r, (f r).name = r.name) (name : String) :
    (s.modify id f keeps).find? name = s.find? name := rfl

@[simp] theorem find?_resetAll (s : Store α) (name : String) :
    s.resetAll.find? name = s.find? name := rfl

@[simp] theorem find?_setValue (s : Store α) (id : Nat) (value : α) (name : String) :
    (s.setValue id value).find? name = s.find? name := rfl

@[simp] theorem find?_setPending (s : Store α) (id : Nat) (pending : List Instruction)
    (name : String) : (s.setPending id pending).find? name = s.find? name := rfl

@[simp] theorem size_setValue (s : Store α) (id : Nat) (value : α) :
    (s.setValue id value).size = s.size := by
  simp [size, setValue, modify]

@[simp] theorem size_setPending (s : Store α) (id : Nat) (pending : List Instruction) :
    (s.setPending id pending).size = s.size := by
  simp [size, setPending, modify]

@[simp] theorem pending_setValue (s : Store α) (id j : Nat) (value : α) :
    (s.setValue id value).pending j = s.pending j := by
  rw [pending, setValue, getElem?_modify]
  split
  · cases here : s.registers[j]? <;> simp [pending, here]
  · rfl

theorem value_setValue [Accumulator α] (s : Store α) (id j : Nat) (value : α)
    (here : id < s.size) :
    (s.setValue id value).value j = if id = j then value else s.value j := by
  rw [Store.value, setValue, getElem?_modify]
  split
  · next same =>
    subst same
    simp [Array.getElem?_eq_getElem here]
  · rfl

@[simp] theorem value_setPending [Accumulator α] (s : Store α) (id j : Nat)
    (pending : List Instruction) : (s.setPending id pending).value j = s.value j := by
  rw [value, setPending, getElem?_modify]
  split
  · cases here : s.registers[j]? <;> simp [value, here]
  · rfl

theorem pending_setPending (s : Store α) (id j : Nat) (pending : List Instruction)
    (here : id < s.size) :
    (s.setPending id pending).pending j = if id = j then pending else s.pending j := by
  rw [Store.pending, setPending, getElem?_modify]
  split
  · next same =>
    subst same
    simp [Array.getElem?_eq_getElem here]
  · rfl

theorem getElem?_append (s : Store α) (id j : Nat) (i : Instruction) :
    (s.append id i).registers[j]? =
      if id = j then s.registers[j]?.map (·.append i) else s.registers[j]? :=
  getElem?_modify s id j (·.append i) fun _ => rfl

theorem getElem?_ensure [Accumulator α] (s : Store α) (name : String) (j : Nat) :
    (s.ensure name).2.registers[j]? =
      if s.find? name = none ∧ j = s.size then some (Register.new name) else s.registers[j]? := by
  unfold ensure
  split
  · next id found => simp [found]
  · next free =>
    simp only [free, true_and]
    exact Array.getElem?_push

@[simp] theorem pending_append (s : Store α) (id j : Nat) (i : Instruction) :
    (s.append id i).pending j = s.pending j := by
  rw [pending, getElem?_append]
  split
  · cases here : s.registers[j]? <;> simp [pending, here, Register.append]
  · rfl

@[simp] theorem value_append [Accumulator α] (s : Store α) (id j : Nat) (i : Instruction) :
    (s.append id i).value j = s.value j := by
  rw [value, getElem?_append]
  split
  · cases here : s.registers[j]? <;> simp [value, here, Register.append]
  · rfl

/-! A register that begins to exist has as much pending, and the same value, as its place before. -/

@[simp] theorem pending_ensure [Accumulator α] (s : Store α) (name : String) (j : Nat) :
    (s.ensure name).2.pending j = s.pending j := by
  rw [pending, getElem?_ensure]
  split
  · next here =>
    have beyond : s.registers[j]? = none := Array.getElem?_eq_none (Nat.le_of_eq here.2.symm)
    simp [pending, beyond, Register.new]
  · rfl

@[simp] theorem value_ensure [Accumulator α] (s : Store α) (name : String) (j : Nat) :
    (s.ensure name).2.value j = s.value j := by
  rw [value, getElem?_ensure]
  split
  · next here =>
    have beyond : s.registers[j]? = none := Array.getElem?_eq_none (Nat.le_of_eq here.2.symm)
    simp [value, beyond, Register.new]
  · rfl

theorem lt_size_of_pending {s : Store α} {id : Nat} {i : Instruction} {rest : List Instruction}
    (waits : s.pending id = i :: rest) : id < s.size := by
  apply Nat.lt_of_not_le
  intro beyond
  simp [pending, Array.getElem?_eq_none beyond] at waits

theorem lt_size_of_find? {s : Store α} {name : String} {id : Nat} (found : s.find? name = some id) :
    id < s.size := by
  rw [find?_eq_some_iff] at found
  apply Nat.lt_of_not_le
  intro beyond
  simp [Array.getElem?_eq_none beyond] at found

theorem find?_ensure [Accumulator α] (s : Store α) (name : String) :
    (s.ensure name).2.find? name = some (s.ensure name).1 := by
  unfold ensure
  split
  · next found => exact found
  · rw [find?_eq_some_iff]
    simp [push, size, Register.new]

theorem lt_size_ensure [Accumulator α] (s : Store α) (name : String) :
    (s.ensure name).1 < (s.ensure name).2.size := lt_size_of_find? (find?_ensure s name)

theorem length_flatMap_modify {β γ : Type} (g : β → List γ) (f : β → β) (l : List β) (i : Nat)
    (here : i < l.length) :
    ((l.modify i f).flatMap g).length + (g l[i]).length =
      (l.flatMap g).length + (g (f l[i])).length := by
  induction l generalizing i with
  | nil => simp at here
  | cons b l ih =>
    cases i with
    | zero =>
      simp only [List.modify_zero_cons, List.flatMap_cons, List.length_append,
        List.getElem_cons_zero]
      omega
    | succ i =>
      have rest := ih i (by simpa using here)
      simp only [List.modify_succ_cons, List.flatMap_cons, List.length_append,
        List.getElem_cons_succ]
      omega

@[simp] theorem pendingTotal_setValue (s : Store α) (id : Nat) (value : α) :
    (s.setValue id value).pendingTotal = s.pendingTotal := by
  by_cases here : id < s.size
  · have length := length_flatMap_modify Register.pending (fun r : Register α => { r with value })
      s.registers.toList id here
    simpa [pendingTotal, setValue, modify, Array.toList_modify] using length
  · rw [setValue, modify_of_le _ _ _ _ (by omega)]

theorem pendingTotal_setPending {s : Store α} {id : Nat} {i : Instruction}
    {rest : List Instruction} (waits : s.pending id = i :: rest) :
    (s.setPending id rest).pendingTotal + 1 = s.pendingTotal := by
  have here := lt_size_of_pending waits
  have length := length_flatMap_modify Register.pending
    (fun r : Register α => { r with pending := rest }) s.registers.toList id here
  have now : s.registers[id].pending = i :: rest := by
    simpa only [pending, Array.getElem?_eq_getElem here, Option.elim_some] using waits
  change _ + s.registers[id].pending.length = _ + rest.length at length
  rw [now, List.length_cons] at length
  simp only [pendingTotal, setPending, modify, Array.toList_modify]
  omega

end RegisterCalculator.Store
