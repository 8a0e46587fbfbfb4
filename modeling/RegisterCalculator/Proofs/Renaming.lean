import Mathlib.Data.Set.Function
import RegisterCalculator.Proofs.Noninterference
import RegisterCalculator.Proofs.Rendering

namespace RegisterCalculator

/-! The same words, registers and answers with every name replaced. -/

def Operand.rename (f : String → String) : Operand → Operand
  | literal x => literal x
  | register name => register (f name)

def Instruction.rename (f : String → String) (i : Instruction) : Instruction :=
  ⟨i.operation, i.operand.rename f⟩

def Command.rename (f : String → String) : Command → Command
  | define register i => define (f register) (i.rename f)
  | print register => print (f register)
  | quit => quit
  | blank => blank

def Register.rename {α : Type} (f : String → String) (r : Register α) : Register α :=
  ⟨f r.name, r.definition.map (Instruction.rename f), r.pending.map (Instruction.rename f), r.value⟩

def Fault.rename (f : String → String) : Fault → Fault
  | registerNotFound name => registerNotFound (f name)
  | invalidOperation word => invalidOperation word
  | invalidOperand word reason => invalidOperand word reason

def Diagnostic.rename (f : String → String) (d : Diagnostic) : Diagnostic :=
  ⟨f d.register, d.fault.rename f⟩

def LineError.rename (f : String → String) : LineError → LineError
  | malformed cause => malformed cause
  | fault cause => fault (cause.rename f)

def Instruction.NamesIn (names : Set String) (i : Instruction) : Prop :=
  ∀ name, i.operand = .register name → name ∈ names

theorem Store.Speaks.mem_of_waits {α : Type} {names : Set String} {s : Store α}
    {Name : String → Prop} (speaks : s.Speaks Name (Instruction.NamesIn names)) {id : Nat}
    {op : Operation} {name : String} {rest : List Instruction}
    (waits : s.pending id = ⟨op, .register name⟩ :: rest) : name ∈ names :=
  speaks.phrase_of_mem (waits ▸ List.mem_cons_self ..) name rfl

/-- A text that names a register wherever it stands among the words of a line: lowercasing leaves it
alone, and it is no numeral. -/
structure Text.IsName (text : String) : Prop where
  word : IsWord text
  low : lowercase text.toList = text.toList
  other : ¬∀ c ∈ text.toList, c.isDigit = true

namespace Text

variable {text : String}

theorem IsName.isLowWord (name : IsName text) : IsLowWord text :=
  ⟨name.word, lowercase_eq_self_iff.mp name.low⟩

theorem isName_iff : IsName text ↔ IsLowWord text ∧ text.toList.all Char.isDigit = false := by
  rw [← Bool.not_eq_true, List.all_eq_true]
  constructor
  · exact fun name => ⟨name.isLowWord, name.other⟩
  · exact fun ⟨word, other⟩ => ⟨word.word, lowercase_eq_self_iff.mpr word.low, other⟩

instance (text : String) : Decidable (IsName text) := decidable_of_iff _ isName_iff.symm

end Text

theorem Operand.Legible.rename {f : String → String} {x : Operand} (legible : x.Legible)
    (fit : ∀ name, x = register name → Text.IsName (f name)) : (x.rename f).Legible := by
  cases x with
  | literal x => exact legible
  | register name =>
    have name := fit name rfl
    exact ⟨name.isLowWord, by simpa using name.other⟩

theorem Command.Legible.rename {f : String → String} {c : Command} (legible : c.Legible)
    (fit : ∀ name ∈ c.names, Text.IsName (f name)) : (c.rename f).Legible := by
  cases c with
  | define register i =>
    refine ⟨(fit register (List.mem_cons_self ..)).isLowWord, legible.2.rename ?_⟩
    intro name operand
    apply fit
    simp [names, Operand.name?, operand]
  | print register => exact (fit register (List.mem_cons_self ..)).isLowWord
  | quit => trivial
  | blank => trivial

namespace Store

variable {α : Type} {f : String → String} {names : Set String} {Phrase : Instruction → Prop}

/-- The same registers in the same places, under other names. -/
def Renamed (f : String → String) (s t : Store α) : Prop :=
  t.registers = s.registers.map (Register.rename f)

theorem renamed_iff {s t : Store α} : Renamed f s t ↔
    ∀ id : Nat, t.registers[id]? = s.registers[id]?.map (Register.rename f) := by
  constructor
  · intro h id
    rw [show t.registers = _ from h, Array.getElem?_map]
  · intro h
    apply Array.ext_getElem?
    intro id
    rw [h, Array.getElem?_map]

namespace Renamed

variable {s t : Store α}

theorem size_eq (h : Renamed f s t) : t.size = s.size := by
  simp only [size, show t.registers = _ from h, Array.size_map]

theorem pending_eq (h : Renamed f s t) (id : Nat) :
    t.pending id = (s.pending id).map (Instruction.rename f) := by
  rw [Store.pending, renamed_iff.mp h]
  cases here : s.registers[id]? <;> simp [Store.pending, here, Register.rename]

theorem waits (h : Renamed f s t) {id : Nat} {i : Instruction} {rest : List Instruction}
    (waits : s.pending id = i :: rest) :
    t.pending id = i.rename f :: rest.map (Instruction.rename f) := by
  rw [h.pending_eq, waits, List.map_cons]

theorem value_eq [Accumulator α] (h : Renamed f s t) (id : Nat) : t.value id = s.value id := by
  rw [Store.value, renamed_iff.mp h]
  cases here : s.registers[id]? <;> simp [Store.value, here, Register.rename]

theorem name_eq (h : Renamed f s t) {id : Nat} (here : id < s.size) :
    t.name id = f (s.name id) := by
  have stands := Array.getElem?_eq_getElem here
  rw [Store.name, renamed_iff.mp h, stands, Store.name, stands]
  rfl

theorem modify (h : Renamed f s t) {g g' : Register α → Register α}
    (keeps : ∀ r, (g r).name = r.name) (keeps' : ∀ r, (g' r).name = r.name)
    (same : ∀ r, g' (r.rename f) = (g r).rename f) (id : Nat) :
    Renamed f (s.modify id g keeps) (t.modify id g' keeps') := by
  rw [renamed_iff]
  intro j
  rw [getElem?_modify, getElem?_modify, renamed_iff.mp h]
  split
  · simp [Function.comp_def, same]
  · rfl

theorem setValue (h : Renamed f s t) (id : Nat) (value : α) :
    Renamed f (s.setValue id value) (t.setValue id value) := by
  apply h.modify
  exact fun _ => rfl

theorem setPending (h : Renamed f s t) (id : Nat) (pending : List Instruction) :
    Renamed f (s.setPending id pending) (t.setPending id (pending.map (Instruction.rename f))) := by
  apply h.modify
  exact fun _ => rfl

theorem append (h : Renamed f s t) (id : Nat) (i : Instruction) :
    Renamed f (s.append id i) (t.append id (i.rename f)) := by
  apply h.modify
  intro r
  simp [Register.append, Register.rename]

theorem resetAll (h : Renamed f s t) : Renamed f s.resetAll t.resetAll := by
  rw [renamed_iff]
  intro id
  have here := renamed_iff.mp h id
  simp [Store.resetAll, here, Function.comp_def, Register.reset, Register.rename]

theorem find?_eq (h : Renamed f s t) (apart : Set.InjOn f names)
    (speaks : s.Speaks (· ∈ names) Phrase) {name : String} (among : name ∈ names) :
    t.find? (f name) = s.find? name := by
  apply Option.ext
  intro id
  rw [find?_eq_some_iff, find?_eq_some_iff, renamed_iff.mp h]
  cases here : s.registers[id]? with
  | none => simp
  | some r =>
    have named : r.name ∈ names := (speaks id r here).name
    simp [Register.rename, apart.eq_iff named among]

theorem ensure [Accumulator α] (h : Renamed f s t) (apart : Set.InjOn f names)
    (speaks : s.Speaks (· ∈ names) Phrase) {name : String} (among : name ∈ names) :
    (t.ensure (f name)).1 = (s.ensure name).1 ∧
    Renamed f (s.ensure name).2 (t.ensure (f name)).2 := by
  have same := h.find?_eq apart speaks among
  constructor
  · rw [(ensure_eq t (f name)).1, (ensure_eq s name).1, same, h.size_eq]
  · rw [renamed_iff]
    intro id
    rw [getElem?_ensure, getElem?_ensure, same, h.size_eq, renamed_iff.mp h]
    split
    · simp [Register.rename, Register.new]
    · rfl

end Renamed

end Store

namespace Engine

variable {α : Type} {f : String → String} {names : Set String} {e g : Engine α}

/-- The same registers in the same places, and the same diagnostics, under other names. -/
structure Renamed (f : String → String) (e g : Engine α) : Prop where
  store : e.store.Renamed f g.store
  diagnostics : g.diagnostics = e.diagnostics.map (Diagnostic.rename f)

namespace Renamed

theorem setValue (h : Renamed f e g) (id : Nat) (value : α) :
    Renamed f (e.setValue id value) (g.setValue id value) :=
  ⟨h.store.setValue id value, h.diagnostics⟩

theorem setPending (h : Renamed f e g) (id : Nat) (pending : List Instruction) :
    Renamed f (e.setPending id pending)
      (g.setPending id (pending.map (Instruction.rename f))) :=
  ⟨h.store.setPending id pending, h.diagnostics⟩

theorem report (h : Renamed f e g) {id : Nat} (here : id < e.store.size) (name : String) :
    Renamed f (e.report id name) (g.report id (f name)) := by
  refine ⟨h.store, ?_⟩
  simp [h.diagnostics, h.store.name_eq here, Diagnostic.rename, Fault.rename]

end Renamed

end Engine

section Apart

variable {α : Type} [Accumulator α] {f : String → String} {names : Set String} {e g : Engine α}
  (apart : Set.InjOn f names) (speaks : e.store.Speaks (· ∈ names) (Instruction.NamesIn names))

include apart speaks

theorem Evaluates.rename {id : Nat} {e' : Engine α} {events : List (Event α)} {value : α}
    (h : Evaluates id e events value e') (renamed : e.Renamed f g) :
    ∃ events' g', Evaluates id g events' value g' ∧ e'.Renamed f g' := by
  induction h generalizing g with
  | @drained id e empty =>
    have empty' : g.store.pending id = [] := by rw [renamed.store.pending_eq, empty, List.map_nil]
    rw [← renamed.store.value_eq]
    exact ⟨_, g, .drained empty', renamed⟩
  | @literal id e op x rest events value e' waits more ih =>
    have waits' := renamed.store.waits waits
    rw [← renamed.store.value_eq] at ih
    obtain ⟨events', g', visit, after⟩ := ih (speaks.advances (.folded waits _))
      ((renamed.setPending id rest).setValue id _)
    exact ⟨_, g', .literal waits' visit, after⟩
  | @missing id e op name rest events value e' waits absent more ih =>
    have waits' := renamed.store.waits waits
    have absent' : g.store.find? (f name) = none := by
      rw [renamed.store.find?_eq apart speaks (speaks.mem_of_waits waits), absent]
    have here : id < (e.setPending id rest).store.size := by
      simpa using Store.lt_size_of_pending waits
    obtain ⟨events', g', visit, after⟩ := ih (speaks.advances (.setPending waits))
      ((renamed.setPending id rest).report here name)
    exact ⟨_, g', .missing waits' absent' visit, after⟩
  | @entered id e op name rest operand inner x between events value e' waits found enters more
      ihEnters ih =>
    have waits' := renamed.store.waits waits
    have found' : g.store.find? (f name) = some operand := by
      rw [renamed.store.find?_eq apart speaks (speaks.mem_of_waits waits), found]
    have began := speaks.advances (.setPending waits)
    obtain ⟨inner', middle, enters', reached⟩ := ihEnters began (renamed.setPending id rest)
    -- The visit of the operand changes no text, so that names stay apart behind it too.
    have ahead := began.advances enters.advances
    rw [← renamed.store.value_eq] at ih
    obtain ⟨events', g', visit, after⟩ := ih (ahead.advances (.setValue ..)) (reached.setValue id _)
    exact ⟨_, g', .entered waits' found' enters' visit, after⟩

namespace Engine.Renamed

variable (h : Renamed f e g)

include h

theorem push {register : String} (among : register ∈ names) (i : Instruction) :
    Renamed f (e.push register i).2 (g.push (f register) (i.rename f)).2 := by
  obtain ⟨place, ensured⟩ := h.store.ensure apart speaks among
  refine ⟨?_, h.diagnostics⟩
  simp only [Engine.push, place]
  exact ensured.append _ i

theorem print {register : String} (among : register ∈ names) :
    (g.print (f register)).1 = (e.print register).1.mapError (Fault.rename f) ∧
    Renamed f (e.print register).2 (g.print (f register)).2 := by
  have same := h.store.find?_eq apart speaks among
  cases found : e.store.find? register with
  | none =>
    rw [print_of_find?_eq_none found, print_of_find?_eq_none (same.trans found)]
    exact ⟨rfl, h⟩
  | some id =>
    have began : Renamed f e.reset g.reset := ⟨h.store.resetAll, h.diagnostics⟩
    have speaks' : e.reset.store.Speaks (· ∈ names) (Instruction.NamesIn names) := speaks.resetAll
    obtain ⟨events, g', visit, after⟩ := (evaluates_evaluate id e.reset).rename apart speaks' began
    rw [print_of_find? found, print_of_find? (same.trans found), evaluate_of_evaluates visit]
    exact ⟨rfl, after⟩

theorem perform {c : Command} (among : ∀ name ∈ c.names, name ∈ names) :
    (g.perform (c.rename f)).1 = (e.perform c).1.mapError (LineError.rename f) ∧
    Renamed f (e.perform c).2 (g.perform (c.rename f)).2 := by
  cases c with
  | define register i =>
    exact ⟨rfl, h.push apart speaks (among register (List.mem_cons_self ..)) i⟩
  | print register =>
    obtain ⟨answer, after⟩ := h.print apart speaks (among register (List.mem_cons_self ..))
    rw [Command.rename, perform_print, perform_print, answer]
    refine ⟨?_, after⟩
    cases (e.print register).1 <;> rfl
  | quit => exact ⟨rfl, h⟩
  | blank => exact ⟨rfl, h⟩

end Engine.Renamed

end Apart

namespace Engine

variable {α : Type} [Accumulator α] {f : String → String} {names : Set String} {e g : Engine α}

theorem execute_of_legible {c : Command} (legible : c.Legible) (e : Engine α) :
    e.execute c.render = e.perform c := by
  simp only [execute, legible.parse_render]

theorem speaks_of_names (h : e.store.Speaks (· ∈ names) (Instruction.NamesIn names)) {c : Command}
    (legible : c.Legible) (among : ∀ name ∈ c.names, name ∈ names) :
    (e.execute c.render).2.store.Speaks (· ∈ names) (Instruction.NamesIn names) := by
  apply speaks_execute h
  intro register i parsed
  cases legible.parse_render.symm.trans parsed
  refine ⟨among register (List.mem_cons_self ..), ?_⟩
  intro name operand
  apply among
  simp [Command.names, Operand.name?, operand]

theorem Renamed.executeAll (h : Renamed f e g) (apart : Set.InjOn f names)
    (speaks : e.store.Speaks (· ∈ names) (Instruction.NamesIn names)) {cs : List Command}
    (legible : ∀ c ∈ cs, c.Legible) (among : ∀ c ∈ cs, ∀ name ∈ c.names, name ∈ names)
    (fit : ∀ name ∈ names, Text.IsName (f name)) :
    List.Forall₂ (fun x y => y.1 = x.1.mapError (LineError.rename f) ∧ Renamed f x.2 y.2)
      (Engine.executeAll (cs.map Command.render) e)
      (Engine.executeAll (cs.map fun c => (c.rename f).render) g) := by
  induction cs generalizing e g with
  | nil => exact .nil
  | cons c cs ih =>
    obtain ⟨first, legible⟩ := List.forall_mem_cons.mp legible
    obtain ⟨here, among⟩ := List.forall_mem_cons.mp among
    have first' := first.rename fun name mem => fit name (here name mem)
    have ahead := speaks_of_names speaks first here
    obtain ⟨answer, after⟩ := h.perform apart speaks here
    rw [← execute_of_legible first, ← execute_of_legible first'] at answer after
    simp only [List.map_cons, Engine.executeAll]
    constructor
    · dsimp only
      exact ⟨answer, after⟩
    · exact ih after ahead legible among

/-- Names carry no meaning. Where others take their place, so that different names stay different,
every line has the same answer, and the registers and diagnostics are the same up to their names.
The new names may be words of the language, such as `print` or `add`. -/
theorem executeAll_rename {cs : List Command} {f : String → String}
    (read : ∀ c ∈ cs, ∃ line, Command.parse line = .ok c)
    (apart : Set.InjOn f {name | name ∈ cs.flatMap Command.names})
    (fit : ∀ name ∈ cs.flatMap Command.names, Text.IsName (f name)) :
    List.Forall₂ (fun x y => y.1 = x.1.mapError (LineError.rename f) ∧ Renamed f x.2 y.2)
      (executeAll (cs.map Command.render) (empty : Engine α))
      (executeAll (cs.map fun c => (c.rename f).render) empty) := by
  have same : Renamed f (empty : Engine α) empty := ⟨Array.map_empty.symm, Array.map_empty.symm⟩
  refine same.executeAll apart Store.speaks_empty ?_ ?_ fit
  · intro c mem
    obtain ⟨line, parsed⟩ := read c mem
    exact Command.legible_of_parse parsed
  · exact fun c mem name used => List.mem_flatMap.mpr ⟨c, mem, used⟩

def asking : List Command :=
  [.define "a" ⟨.add, .register "b"⟩, .define "a" ⟨.add, .register "c"⟩,
    .define "b" ⟨.add, .literal 2⟩, .print "a", .print "c"]

def keyworded (name : String) : String :=
  if name = "a" then "print" else if name = "b" then "quit" else "add"

theorem executeAll_rename_keyworded :
    (asking.map fun c => (c.rename keyworded).render) =
      ["print add quit", "print add add", "quit add 2", "print print", "print add"] ∧
    List.Forall₂
      (fun x y => y.1 = x.1.mapError (LineError.rename keyworded) ∧ Renamed keyworded x.2 y.2)
      (executeAll (asking.map Command.render) (empty : Engine Int64))
      (executeAll (asking.map fun c => (c.rename keyworded).render) empty) := by
  have among : ∀ name, name ∈ asking.flatMap Command.names →
      name = "a" ∨ name = "b" ∨ name = "c" := by
    intro name mem
    simpa [asking, Command.names, Operand.name?, or_comm, or_left_comm] using mem
  have read : ∀ c ∈ asking, Command.parse c.render = .ok c := by decide +kernel
  refine ⟨by decide +kernel, executeAll_rename (fun c mem => ⟨_, read c mem⟩) ?_ ?_⟩
  · intro name mem name' mem' same
    rcases among name mem with rfl | rfl | rfl <;> rcases among name' mem' with rfl | rfl | rfl <;>
      first | rfl | exact absurd same (by decide)
  · intro name mem
    rcases among name mem with rfl | rfl | rfl <;> decide

end Engine

end RegisterCalculator
