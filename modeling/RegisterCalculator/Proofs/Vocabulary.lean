import RegisterCalculator.Proofs.Grammar
import RegisterCalculator.Proofs.Locality
import RegisterCalculator.Proofs.Missing
import RegisterCalculator.Proofs.Recording

namespace RegisterCalculator

section Speaks

variable {α : Type} {Name : String → Prop} {Phrase : Instruction → Prop}

/-- A register with a name of one kind, and with instructions of one kind in its definition and in
its queue. -/
structure Register.Speaks (Name : String → Prop) (Phrase : Instruction → Prop) (r : Register α) :
    Prop where
  name : Name r.name
  definition : ∀ i ∈ r.definition, Phrase i
  pending : ∀ i ∈ r.pending, Phrase i

namespace Register.Speaks

theorem new [Accumulator α] {name : String} (named : Name name) :
    (Register.new name : Register α).Speaks Name Phrase :=
  ⟨named, by simp [Register.new], by simp [Register.new]⟩

theorem append {r : Register α} {i : Instruction} (h : r.Speaks Name Phrase) (phrase : Phrase i) :
    (r.append i).Speaks Name Phrase := by
  refine ⟨h.name, ?_, h.pending⟩
  intro j mem
  rcases Array.mem_push.mp mem with mem | rfl
  · exact h.definition j mem
  · exact phrase

theorem reset {r : Register α} (h : r.Speaks Name Phrase) : r.reset.Speaks Name Phrase :=
  ⟨h.name, h.definition, fun i mem => h.definition i (Array.mem_toList_iff.mp mem)⟩

end Register.Speaks

namespace Store

def Speaks (Name : String → Prop) (Phrase : Instruction → Prop) (s : Store α) : Prop :=
  ∀ (id : Nat) (r : Register α), s.registers[id]? = some r → r.Speaks Name Phrase

theorem speaks_empty : (empty : Store α).Speaks Name Phrase := by
  intro id r here
  simp [empty] at here

namespace Speaks

variable {s t : Store α}

theorem ensure [Accumulator α] (h : s.Speaks Name Phrase) {name : String} (named : Name name) :
    (s.ensure name).2.Speaks Name Phrase := by
  intro id r here
  rw [getElem?_ensure] at here
  split at here
  · exact Option.some.inj here ▸ .new named
  · exact h id r here

theorem append (h : s.Speaks Name Phrase) (id : Nat) {i : Instruction} (phrase : Phrase i) :
    (s.append id i).Speaks Name Phrase := by
  intro place r here
  rw [getElem?_append] at here
  split at here
  · obtain ⟨r, before, rfl⟩ := Option.map_eq_some_iff.mp here
    exact (h place r before).append phrase
  · exact h place r here

theorem resetAll (h : s.Speaks Name Phrase) : s.resetAll.Speaks Name Phrase := by
  intro id r here
  obtain ⟨r, before, rfl⟩ := Option.map_eq_some_iff.mp (Array.getElem?_map.symm.trans here)
  exact (h id r before).reset

theorem advances (h : s.Speaks Name Phrase) (work : s.Advances t) : t.Speaks Name Phrase := by
  intro id r here
  have names := congrArg (·[id]?) work.names
  have definitions := congrArg (·[id]?) work.definitions
  have pending := work.pending id
  simp only [Array.getElem?_map, here, Option.map_some] at names definitions
  obtain ⟨before, stood, name⟩ := Option.map_eq_some_iff.mp names.symm
  simp only [stood, Option.map_some, Option.some.injEq] at definitions
  simp only [Store.pending, here, stood, Option.elim_some] at pending
  have spoke := h id before stood
  exact ⟨name ▸ spoke.name, definitions ▸ spoke.definition,
    fun i mem => spoke.pending i (pending.subset mem)⟩

theorem name_of_lt (h : s.Speaks Name Phrase) {id : Nat} (here : id < s.size) :
    Name (s.name id) := by
  have stands := Array.getElem?_eq_getElem here
  rw [Store.name, stands]
  exact (h id _ stands).name

theorem phrase_of_mem (h : s.Speaks Name Phrase) {id : Nat} {i : Instruction}
    (waits : i ∈ s.pending id) : Phrase i := by
  have stands := Array.getElem?_eq_getElem (lt_size_of_mem waits)
  rw [Store.pending, stands] at waits
  exact (h id _ stands).pending i waits

end Speaks

end Store

namespace Engine

variable [Accumulator α] {e : Engine α}

theorem speaks_push (h : e.store.Speaks Name Phrase) {register : String} {i : Instruction}
    (named : Name register) (phrase : Phrase i) :
    (e.push register i).2.store.Speaks Name Phrase :=
  (h.ensure named).append _ phrase

theorem speaks_evaluate (h : e.store.Speaks Name Phrase) (id : Nat) :
    (e.evaluate id).2.store.Speaks Name Phrase :=
  h.advances (evaluates_evaluate id e).advances

theorem speaks_execute (h : e.store.Speaks Name Phrase) {line : String}
    (defines : ∀ register i, Command.parse line = .ok (.define register i) →
      Name register ∧ Phrase i) :
    (e.execute line).2.store.Speaks Name Phrase := by
  cases e.execution line with
  | defined register i parsed outcome =>
    obtain ⟨named, phrase⟩ := defines register i parsed
    rw [outcome]
    exact speaks_push h named phrase
  | printed register id parsed found outcome =>
    have began : e.reset.store.Speaks Name Phrase := h.resetAll
    rw [outcome]
    exact speaks_evaluate began id
  | malformed _ _ outcome => rwa [outcome]
  | missing _ _ _ outcome => rwa [outcome]
  | quit _ outcome => rwa [outcome]
  | blank _ outcome => rwa [outcome]

/-- Only a print that finds its register records anything: what the registers within reach have to
complain of when the pass begins. -/
theorem recorded_cases (line : String) (e : Engine α) :
    e.recorded line = [] ∨
    ∃ register id, Command.parse line = .ok (.print register) ∧
      e.store.find? register = some id ∧
      e.recorded line = e.reset.store.complaints (e.reset.trace id) := by
  have silent : (e.execute line).2.diagnostics = e.diagnostics → e.recorded line = [] := by
    intro same
    rw [recorded, same, ← Array.length_toList, List.drop_length]
  cases e.execution line with
  | printed register id parsed found outcome =>
    have behind := (evaluates_evaluate id e.reset).diagnostics_eq_append
    refine .inr ⟨register, id, parsed, found, ?_⟩
    rw [recorded, outcome, behind]
    exact List.drop_left' e.diagnostics.length_toList
  | defined register i _ outcome => exact .inl (silent (by rw [outcome, push]))
  | malformed _ _ outcome => exact .inl (silent (by rw [outcome]))
  | missing _ _ _ outcome => exact .inl (silent (by rw [outcome]))
  | quit _ outcome => exact .inl (silent (by rw [outcome]))
  | blank _ outcome => exact .inl (silent (by rw [outcome]))

theorem speaks_recorded (h : e.store.Speaks Name Phrase) {line : String} {d : Diagnostic}
    (mem : d ∈ e.recorded line) :
    Name d.register ∧ ∃ i name, Phrase i ∧ i.operand = .register name ∧
      d.fault = .registerNotFound name := by
  rcases recorded_cases line e with none | ⟨register, id, _, _, complaints⟩
  · simp [none] at mem
  · rw [complaints] at mem
    obtain ⟨r, i, takes, complains⟩ := Store.mem_complaints.mp mem
    have began : e.reset.store.Speaks Name Phrase := h.resetAll
    have waits := (evaluates_evaluate id e.reset).mem_pending_of_take takes
    obtain ⟨name, operand, _, rfl⟩ := Store.complaint?_eq_some complains
    exact ⟨began.name_of_lt (Store.lt_size_of_mem waits), i, name, began.phrase_of_mem waits, operand,
      rfl⟩

end Engine

end Speaks

/-- A text that can stand among the words of a line. -/
def Text.IsWord (text : String) : Prop :=
  text.toList ≠ [] ∧ ∀ c ∈ text.toList, Text.isBlank c = false

def Instruction.NamesWord (i : Instruction) : Prop :=
  ∀ name, i.operand = .register name → Text.IsWord name

namespace Command

/-- The registers that a command names. -/
def names : Command → List String
  | define register i => register :: i.operand.name?.toList
  | print register => [register]
  | quit => []
  | blank => []

/-- A command names words of its line and nothing else. -/
theorem names_subset_words {line : String} {c : Command} (parsed : parse line = .ok c) :
    c.names ⊆ Text.words line := by
  have written := parse_eq_ok_iff.mp parsed
  cases c with
  | define register i =>
    obtain ⟨t, three, operand⟩ := written
    rw [three]
    cases x : i.operand with
    | literal value => simp [names, x, Operand.name?]
    | register name =>
      rw [x] at operand
      simp [names, x, Operand.name?, operand.1]
  | print register => simp [names, show Text.words line = _ from written]
  | quit => simp [names]
  | blank => simp [names]

theorem isWord_of_mem_names {line : String} {c : Command} (parsed : parse line = .ok c)
    {name : String} (mem : name ∈ c.names) : Text.IsWord name :=
  Text.of_mem_words (names_subset_words parsed mem)

end Command

namespace Engine

variable {α : Type} [Accumulator α]

/-- Whatever lines are carried out, registers have words for names, and so do their operands. -/
theorem words_execute {e : Engine α} (h : e.store.Speaks Text.IsWord Instruction.NamesWord)
    (line : String) : (e.execute line).2.store.Speaks Text.IsWord Instruction.NamesWord := by
  apply speaks_execute h
  intro register i parsed
  refine ⟨Command.isWord_of_mem_names parsed (List.mem_cons_self ..), ?_⟩
  intro name operand
  apply Command.isWord_of_mem_names parsed
  simp [Command.names, Operand.name?, operand]

end Engine

end RegisterCalculator
