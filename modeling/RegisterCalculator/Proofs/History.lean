import RegisterCalculator.Engine.Line
import RegisterCalculator.Proofs.Queue
import RegisterCalculator.Proofs.Registry

namespace RegisterCalculator

/-- What a line defines: a register and an instruction for it. -/
def Command.definition? (line : String) : Option (String × Instruction) :=
  match parse line with
  | .ok (.define register i) => some (register, i)
  | _ => none

theorem getElem?_concat_eq_some {β : Type} {l : List β} {x y : β} {place : Nat}
    (here : (l ++ [x])[place]? = some y) : l[place]? = some y ∨ place = l.length ∧ x = y := by
  grind

namespace Store

variable {α : Type}

/-- The registers stand for definitions given one after the other. Each has its place where its name
was first given, and its definition is made up of all that was given to the name, in order. -/
structure Records (given : List (String × Instruction)) (s : Store α) : Prop where
  names : s.names = (given.map Prod.fst).eraseDups
  definition : ∀ id name, s.names[id]? = some name →
    s.definition id = (given.filter (·.1 = name)).map Prod.snd

theorem records_empty : (empty : Store α).Records [] := ⟨rfl, fun _ _ here => nomatch here⟩

theorem Records.definition_of_mem {given : List (String × Instruction)} {s : Store α}
    (h : s.Records given) {r : Register α} (mem : r ∈ s.registers) :
    r.definition.toList = (given.filter (·.1 = r.name)).map Prod.snd := by
  obtain ⟨id, here⟩ := Array.mem_iff_getElem?.mp mem
  have name : s.names[id]? = some r.name := by rw [getElem?_names, here, Option.map_some]
  have definition := h.definition id r.name name
  rwa [Store.definition, here, Option.elim_some] at definition

theorem SameText.records {given : List (String × Instruction)} {s t : Store α} (same : s.SameText t)
    (h : s.Records given) : t.Records given := by
  have names : t.names = s.names := by
    simpa only [Store.names, Array.toList_map] using congrArg Array.toList same.names
  refine ⟨names.trans h.names, ?_⟩
  intro id name here
  rw [same.definition_eq, h.definition id name (names ▸ here)]

theorem sameText_resetAll (s : Store α) : s.SameText s.resetAll := by
  refine ⟨rfl, ?_, ?_⟩ <;> simp [resetAll, Register.reset, Function.comp_def]

theorem definition_of_size_le {s : Store α} {id : Nat} (beyond : s.size ≤ id) :
    s.definition id = [] := by
  simp [definition, Array.getElem?_eq_none beyond]

end Store

namespace Engine

variable {α : Type} [Accumulator α] {given : List (String × Instruction)} {e : Engine α}

theorem names_push (register : String) (i : Instruction) (e : Engine α) :
    (e.push register i).2.store.names =
      if register ∈ e.store.names then e.store.names else e.store.names ++ [register] :=
  (Store.names_append ..).trans (Store.names_ensure ..)

theorem push_eq_iff {register name : String} {i : Instruction} {id : Nat}
    (here : (e.push register i).2.store.names[id]? = some name) :
    (e.push register i).1 = id ↔ register = name := by
  have place : (e.push register i).2.store.find? register = some (e.push register i).1 :=
    Store.find?_ensure e.store register
  have found := Store.find?_eq_some_iff_names.mpr here
  constructor
  · intro same
    rw [same] at place
    exact Store.find?_injective place found
  · rintro rfl
    exact Option.some.inj (place.symm.trans found)

theorem records_push (h : e.store.Records given) (register : String) (i : Instruction) :
    (e.push register i).2.store.Records (given ++ [(register, i)]) := by
  have names := names_push register i e
  have known : register ∈ e.store.names ↔ register ∈ given.map Prod.fst := by
    rw [h.names, List.mem_eraseDups]
  constructor
  · rw [names, List.map_append, List.map_singleton, eraseDups_concat, h.names]
    simp only [← known, h.names]
  · intro id name here
    -- A place that is new has had nothing so far, and neither has its name.
    have before : e.store.definition id = (given.filter (·.1 = name)).map Prod.snd := by
      have there := here
      rw [names] at there
      split at there
      · exact h.definition id name there
      · next new =>
        rcases getElem?_concat_eq_some there with there | ⟨last, rfl⟩
        · exact h.definition id name there
        · have nothing : given.filter (·.1 = register) = [] := by
            rw [List.filter_eq_nil_iff]
            intro d mem
            have other : register ≠ d.1 := fun same =>
              new (known.mpr (same ▸ List.mem_map_of_mem mem))
            simpa using other.symm
          have beyond : e.store.size ≤ id :=
            Nat.le_of_eq ((Store.length_names _).symm.trans last.symm)
          rw [nothing, Store.definition_of_size_le beyond, List.map_nil]
    rw [definition_push, before, List.filter_append, List.map_append]
    simp only [push_eq_iff here]
    by_cases same : register = name <;> simp [same]

theorem execute_of_definition {line register : String} {i : Instruction}
    (defines : Command.definition? line = some (register, i)) (e : Engine α) :
    e.execute line = (.ok .defined, (e.push register i).2) := by
  unfold Command.definition? at defines
  split at defines
  · next parsed =>
    cases defines
    simp only [execute, parsed, perform]
  · cases defines

theorem execute_of_definition?_eq_none {line : String} (other : Command.definition? line = none)
    (e : Engine α) :
    (e.execute line).1 ≠ .ok .defined ∧ e.store.SameText (e.execute line).2.store := by
  have unchanged := (Store.Advances.refl e.store).toSameText
  cases e.execution line with
  | defined register i parsed _ => simp [Command.definition?, parsed] at other
  | printed register id _ _ outcome =>
    have work := (evaluates_evaluate id e.reset).advances
    rw [outcome]
    exact ⟨by simp, (Store.sameText_resetAll e.store).trans work.toSameText⟩
  | malformed _ _ outcome => rw [outcome]; exact ⟨by simp, unchanged⟩
  | missing _ _ _ outcome => rw [outcome]; exact ⟨by simp, unchanged⟩
  | quit _ outcome => rw [outcome]; exact ⟨by simp, unchanged⟩
  | blank _ outcome => rw [outcome]; exact ⟨by simp, unchanged⟩

theorem records_execute (h : e.store.Records given) (line : String) :
    (e.execute line).2.store.Records (given ++ (Command.definition? line).toList) := by
  cases defines : Command.definition? line with
  | none => simpa using (execute_of_definition?_eq_none defines e).2.records h
  | some d =>
    rw [execute_of_definition defines]
    exact records_push h d.1 d.2

theorem records_follow (h : e.store.Records given) (lines : List String) :
    (e.follow lines).store.Records (given ++ lines.filterMap Command.definition?) := by
  induction lines generalizing e given with
  | nil => simpa [follow] using h
  | cons line lines ih =>
    have rest := ih (records_execute h line)
    rw [List.append_assoc] at rest
    rw [follow_cons, List.filterMap_cons]
    cases defines : Command.definition? line <;> simpa [defines] using rest

/-- From a fresh engine, the registers are the history of what the lines define. -/
theorem records_follow_empty (lines : List String) :
    ((empty : Engine α).follow lines).store.Records (lines.filterMap Command.definition?) := by
  have fresh : (empty : Engine α).store.Records [] := Store.records_empty
  exact records_follow fresh lines

/-- The registers are the history of the lines that define: names in the order in which each came
first, and under each name its instructions in order. Every other line leaves names and definitions
as they are. -/
theorem registers_of_definitions (lines : List String) :
    let s := ((empty : Engine α).follow lines).store
    let given := lines.filterMap Command.definition?
    s.names = (given.map Prod.fst).eraseDups ∧
    (∀ r ∈ s.registers, r.definition.toList = (given.filter (·.1 = r.name)).map Prod.snd) ∧
    ∀ (e : Engine α) (line : String),
      ((Command.definition? line).isSome ↔ (e.execute line).1 = .ok .defined) ∧
      ((e.execute line).1 = .ok .defined → ∀ id,
        (e.execute line).2.store.value id = e.store.value id ∧
        (e.execute line).2.store.pending id = e.store.pending id) ∧
      ((e.execute line).1 ≠ .ok .defined → e.store.SameText (e.execute line).2.store) := by
  intro s given
  have records : s.Records given := records_follow_empty lines
  refine ⟨records.names, fun _ => records.definition_of_mem, ?_⟩
  intro e line
  cases defines : Command.definition? line with
  | some d => simp [execute_of_definition defines]
  | none =>
    obtain ⟨answer, text⟩ := execute_of_definition?_eq_none defines e
    simp [answer, text]

theorem registers_of_definitions_mixed :
    let lines := ["b add A", "print b", "a multiply 3", "quit", "B subtract ghost", "print ghost",
      "a divide 2", "", "A add 4"]
    let s := ((empty : Engine Int64).follow lines).store
    s.names = ["b", "a"] ∧
    (∀ r ∈ s.registers, r.name = "a" →
      r.definition.toList = [⟨.multiply, .literal 3⟩, ⟨.add, .literal 4⟩]) ∧
    (s.definition 0 = [⟨.add, .register "a"⟩, ⟨.subtract, .register "ghost"⟩]) := by
  intro lines s
  have given : lines.filterMap Command.definition? =
      [("b", ⟨.add, .register "a"⟩), ("a", ⟨.multiply, .literal 3⟩),
        ("b", ⟨.subtract, .register "ghost"⟩), ("a", ⟨.add, .literal 4⟩)] := by decide +kernel
  obtain ⟨names, definitions, _⟩ := registers_of_definitions (α := Int64) lines
  rw [given] at names definitions
  have places : s.names = ["b", "a"] := names
  refine ⟨places, ?_, by decide +kernel⟩
  intro r mem name
  rw [definitions r mem, name]
  decide

end Engine

end RegisterCalculator
