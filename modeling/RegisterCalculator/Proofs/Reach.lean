import Mathlib.Logic.Function.Iterate
import Mathlib.Logic.Relation
import RegisterCalculator.Proofs.Recursion

namespace RegisterCalculator

namespace Store

variable {α : Type}

/-- A pending instruction of one register names the other. -/
def Leads (s : Store α) (r t : Nat) : Prop :=
  ∃ i ∈ s.pending r, ∃ name, i.operand = .register name ∧ s.find? name = some t

/-- The registers that pending instructions lead to, over any number of references. -/
def Reaches (s : Store α) : Nat → Nat → Prop := Relation.ReflTransGen s.Leads

def operand? (s : Store α) (i : Instruction) : Option Nat :=
  match i.operand with
  | .literal _ => none
  | .register name => s.find? name

theorem leads_iff {s : Store α} {r t : Nat} :
    s.Leads r t ↔ ∃ i ∈ s.pending r, s.operand? i = some t := by
  constructor
  · rintro ⟨i, waits, name, operand, found⟩
    exact ⟨i, waits, by rw [operand?, operand]; exact found⟩
  · rintro ⟨⟨op, operand⟩, waits, names⟩
    cases operand with
    | literal x => simp [operand?] at names
    | register name => exact ⟨_, waits, name, rfl, names⟩

instance (s : Store α) (r t : Nat) : Decidable (s.Leads r t) := decidable_of_iff' _ leads_iff

theorem lt_size_of_mem {s : Store α} {r : Nat} {i : Instruction} (waits : i ∈ s.pending r) :
    r < s.size := by
  obtain ⟨before, after, split⟩ := List.append_of_mem waits
  cases before with
  | nil => exact lt_size_of_pending split
  | cons j before => exact lt_size_of_pending split

theorem eq_or_lt_size_of_reaches {s : Store α} {id r : Nat} (reached : s.Reaches id r) :
    r = id ∨ r < s.size := by
  cases reached with
  | refl => exact .inl rfl
  | tail _ leads =>
    obtain ⟨i, _, name, _, found⟩ := leads
    exact .inr (lt_size_of_find? found)

/-- The same registers in the same places, with the same definitions, found by the same names. -/
structure SameText (s t : Store α) : Prop where
  index : t.index = s.index
  names : t.registers.map Register.name = s.registers.map Register.name
  definitions : t.registers.map Register.definition = s.registers.map Register.definition

/-- Work on a store changes values and takes instructions off the front of queues, but no text. -/
structure Advances (s t : Store α) : Prop extends SameText s t where
  pending : ∀ r, t.pending r <:+ s.pending r

theorem map_modify {β : Type} (s : Store α) (id : Nat) (f : Register α → Register α)
    (keeps : ∀ r, (f r).name = r.name) (g : Register α → β) (same : ∀ r, g (f r) = g r) :
    (s.modify id f keeps).registers.map g = s.registers.map g := by
  apply Array.ext_getElem?
  intro j
  rw [Array.getElem?_map, Array.getElem?_map, getElem?_modify]
  split
  · simp [Function.comp_def, same]
  · rfl

theorem SameText.symm {s t : Store α} (h : s.SameText t) : t.SameText s :=
  ⟨h.index.symm, h.names.symm, h.definitions.symm⟩

theorem SameText.trans {s t u : Store α} (h : s.SameText t) (k : t.SameText u) : s.SameText u :=
  ⟨k.index.trans h.index, k.names.trans h.names, k.definitions.trans h.definitions⟩

theorem SameText.size_eq {s t : Store α} (h : s.SameText t) : t.size = s.size := by
  simpa [size] using congrArg Array.size h.names

namespace Advances

theorem refl (s : Store α) : s.Advances s := ⟨⟨rfl, rfl, rfl⟩, fun _ => List.suffix_rfl⟩

theorem trans {s t u : Store α} (h : s.Advances t) (k : t.Advances u) : s.Advances u :=
  ⟨h.toSameText.trans k.toSameText, fun r => (k.pending r).trans (h.pending r)⟩

theorem setValue (s : Store α) (id : Nat) (value : α) : s.Advances (s.setValue id value) :=
  ⟨⟨rfl, map_modify _ _ _ _ _ fun _ => rfl, map_modify _ _ _ _ _ fun _ => rfl⟩,
    fun r => by simp [List.suffix_rfl]⟩

theorem setPending {s : Store α} {id : Nat} {i : Instruction} {rest : List Instruction}
    (waits : s.pending id = i :: rest) : s.Advances (s.setPending id rest) := by
  refine ⟨⟨rfl, map_modify _ _ _ _ _ fun _ => rfl, map_modify _ _ _ _ _ fun _ => rfl⟩, ?_⟩
  intro r
  rw [pending_setPending _ _ _ _ (lt_size_of_pending waits)]
  split
  · next same =>
    rw [← same, waits]
    exact List.suffix_cons ..
  · exact List.suffix_rfl

theorem folded {s : Store α} {id : Nat} {i : Instruction} {rest : List Instruction}
    (waits : s.pending id = i :: rest) (value : α) :
    s.Advances ((s.setPending id rest).setValue id value) :=
  (setPending waits).trans (setValue ..)

theorem find?_eq {s t : Store α} (h : s.Advances t) (name : String) :
    t.find? name = s.find? name := by
  simp only [find?, h.index]

theorem pending_eq_nil {s t : Store α} (h : s.Advances t) {r : Nat} (empty : s.pending r = []) :
    t.pending r = [] := by
  simpa [empty] using h.pending r

theorem leads {s t : Store α} (h : s.Advances t) {r u : Nat} (leads : t.Leads r u) :
    s.Leads r u := by
  obtain ⟨i, waits, name, operand, found⟩ := leads
  exact ⟨i, (h.pending r).subset waits, name, operand, h.find?_eq name ▸ found⟩

theorem reaches {s t : Store α} (h : s.Advances t) {r u : Nat} (reaches : t.Reaches r u) :
    s.Reaches r u :=
  Relation.ReflTransGen.mono (fun _ _ => h.leads) r u reaches

end Advances

theorem reaches_of_head {s : Store α} {r t u : Nat} {op : Operation} {name : String}
    {rest : List Instruction} (waits : s.pending r = ⟨op, .register name⟩ :: rest)
    (found : s.find? name = some t) (reaches : s.Reaches t u) : s.Reaches r u :=
  .head ⟨_, waits ▸ List.mem_cons_self .., name, rfl, found⟩ reaches

end Store

namespace Evaluates

variable {α : Type} [Accumulator α] {id : Nat} {e e' : Engine α} {events : List (Event α)}
  {value : α}

theorem advances (h : Evaluates id e events value e') : e.store.Advances e'.store := by
  induction h with
  | drained _ => exact .refl _
  | literal waits _ ih => exact (Store.Advances.folded waits _).trans ih
  | missing waits _ _ ih => exact (Store.Advances.setPending waits).trans ih
  | entered waits _ _ _ ihEnters ih =>
    exact (Store.Advances.setPending waits).trans
      (ihEnters.trans ((Store.Advances.setValue ..).trans ih))

theorem advances_between {i : Instruction} {rest : List Instruction} {operand : Nat}
    {between : Engine α} (waits : e.store.pending id = i :: rest)
    (enters : Evaluates operand (e.setPending id rest) events value between) (folded : α) :
    e.store.Advances (between.setValue id folded).store :=
  (Store.Advances.setPending waits).trans (enters.advances.trans (Store.Advances.setValue ..))

theorem pending_eq_append (h : Evaluates id e events value e') (r : Nat) :
    e.store.pending r = taken r events ++ e'.store.pending r := by
  have run := h.run_enter [] Accumulator.zero
  have pending := Machine.pending_run (Machine.of e [.enter id] Accumulator.zero) r
  rw [run.1, run.2, Machine.run_nil, Machine.trace_nil, List.append_nil] at pending
  exact pending

theorem pending_self (h : Evaluates id e events value e') : e'.store.pending id = [] := by
  induction h with
  | drained empty => exact empty
  | literal _ _ ih => exact ih
  | missing _ _ _ ih => exact ih
  | entered _ _ _ _ _ ih => exact ih

theorem value_self (h : Evaluates id e events value e') : e'.store.value id = value := by
  induction h with
  | drained _ => rfl
  | literal _ _ ih => exact ih
  | missing _ _ _ ih => exact ih
  | entered _ _ _ _ _ ih => exact ih

/-- A register that gave an instruction, and the one that the instruction names, have nothing
pending in the end: both were visited, and a visit ends with an empty queue. -/
theorem pending_of_take (h : Evaluates id e events value e') {r : Nat} {i : Instruction}
    (takes : .take r i ∈ events) :
    e'.store.pending r = [] ∧
    ∀ name t, i.operand = .register name → e.store.find? name = some t →
      e'.store.pending t = [] := by
  induction h with
  | drained _ => simp at takes
  | literal waits more ih =>
    rcases List.mem_cons.mp takes with same | takes
    · obtain ⟨rfl, rfl⟩ := Event.take.inj same
      exact ⟨more.pending_self, by simp⟩
    · exact ih takes
  | missing waits absent more ih =>
    rcases List.mem_cons.mp takes with same | takes
    · obtain ⟨rfl, rfl⟩ := Event.take.inj same
      refine ⟨more.pending_self, ?_⟩
      intro name t operand found
      cases operand
      simp [absent] at found
    · exact ih takes
  | entered waits found enters more ihEnters ih =>
    have later := (Store.Advances.setValue ..).trans more.advances
    rcases List.mem_cons.mp takes with same | takes
    · obtain ⟨rfl, rfl⟩ := Event.take.inj same
      refine ⟨more.pending_self, ?_⟩
      intro name t operand found'
      cases operand
      cases found.symm.trans found'
      exact later.pending_eq_nil enters.pending_self
    · rcases List.mem_append.mp takes with takes | takes
      · obtain ⟨register, operand⟩ := ihEnters takes
        exact ⟨later.pending_eq_nil register,
          fun name t names found => later.pending_eq_nil (operand name t names found)⟩
      · obtain ⟨register, operand⟩ := ih takes
        refine ⟨register, fun name t names found => operand name t names ?_⟩
        exact ((advances_between waits enters _).find?_eq name).trans found

theorem reaches_of_mem (h : Evaluates id e events value e') {event : Event α}
    (mem : event ∈ events) : e.store.Reaches id event.register := by
  induction h with
  | drained _ => exact List.mem_singleton.mp mem ▸ .refl
  | literal waits _ ih =>
    rcases List.mem_cons.mp mem with rfl | mem
    · exact .refl
    · exact (Store.Advances.folded waits _).reaches (ih mem)
  | missing waits _ _ ih =>
    rcases List.mem_cons.mp mem with rfl | mem
    · exact .refl
    · exact (Store.Advances.setPending waits).reaches (ih mem)
  | entered waits found enters _ ihEnters ih =>
    rcases List.mem_cons.mp mem with rfl | mem
    · exact .refl
    · rcases List.mem_append.mp mem with mem | mem
      · exact Store.reaches_of_head waits found
          ((Store.Advances.setPending waits).reaches (ihEnters mem))
      · exact (advances_between waits enters _).reaches (ih mem)

/-- A register is written only by its own visits, and only after they have taken an instruction from
it. -/
theorem getElem?_untaken (h : Evaluates id e events value e') {r : Nat}
    (untaken : ∀ i, .take r i ∉ events) : e'.store.registers[r]? = e.store.registers[r]? := by
  induction h with
  | drained _ => rfl
  | literal _ _ ih =>
    have other := ne_of_untaken untaken
    rw [ih fun i takes => untaken i (List.mem_cons_of_mem _ takes), Engine.store_setValue,
      Engine.store_setPending, Store.getElem?_setValue_of_ne _ _ other,
      Store.getElem?_setPending_of_ne _ _ other]
  | missing _ _ _ ih =>
    rw [ih fun i takes => untaken i (List.mem_cons_of_mem _ takes), Engine.store_report,
      Engine.store_setPending, Store.getElem?_setPending_of_ne _ _ (ne_of_untaken untaken)]
  | @entered id e op name rest operand inner x between events value e' _ _ _ _ ihEnters ih =>
    have other := ne_of_untaken untaken
    calc e'.store.registers[r]?
        = (between.setValue id (Accumulator.apply op (e.store.value id) x)).store.registers[r]? :=
          ih fun i takes => untaken i (by simp [takes])
      _ = between.store.registers[r]? := Store.getElem?_setValue_of_ne _ _ other
      _ = (e.setPending id rest).store.registers[r]? :=
          ihEnters fun i takes => untaken i (by simp [takes])
      _ = e.store.registers[r]? := Store.getElem?_setPending_of_ne _ _ other

theorem getElem?_unreached (h : Evaluates id e events value e') {r : Nat}
    (unreached : ¬ e.store.Reaches id r) : e'.store.registers[r]? = e.store.registers[r]? :=
  h.getElem?_untaken fun _ takes => unreached (h.reaches_of_mem takes)

/-- Every register within reach has been worked off: a visit drains its register, and what it takes
from the queue there leads it on to the next. -/
theorem pending_reached (h : Evaluates id e events value e') {r : Nat}
    (reached : e.store.Reaches id r) : e'.store.pending r = [] := by
  induction reached with
  | refl => exact h.pending_self
  | @tail r t _ leads ih =>
    obtain ⟨i, waits, name, operand, found⟩ := leads
    have takes : i ∈ taken r events := by
      rw [h.pending_eq_append r, ih, List.append_nil] at waits
      exact waits
    exact (h.pending_of_take (mem_taken.mp takes)).2 name t operand found

theorem taken_reached (h : Evaluates id e events value e') {r : Nat}
    (reached : e.store.Reaches id r) : taken r events = e.store.pending r := by
  rw [h.pending_eq_append r, h.pending_reached reached, List.append_nil]

theorem mem_pending_of_take (h : Evaluates id e events value e') {r : Nat} {i : Instruction}
    (takes : .take r i ∈ events) : i ∈ e.store.pending r := by
  rw [h.pending_eq_append r]
  exact List.mem_append_left _ (mem_taken.mpr takes)

theorem getElem?_drained (h : Evaluates id e events value e') {r : Nat}
    (empty : e.store.pending r = []) : e'.store.registers[r]? = e.store.registers[r]? :=
  h.getElem?_untaken fun i takes => by simpa [empty] using h.mem_pending_of_take takes

theorem taken_unreached (h : Evaluates id e events value e') {r : Nat}
    (unreached : ¬ e.store.Reaches id r) : taken r events = [] := by
  rw [List.eq_nil_iff_forall_not_mem]
  exact fun i takes => unreached (h.reaches_of_mem (mem_taken.mp takes))

end Evaluates

namespace Engine

variable {α : Type} [Accumulator α]

/-- An evaluation runs the instructions pending in the registers within reach, each once and in the
order of its queue. Those registers end with empty queues, every other register is left as it is,
and no text has changed. -/
theorem evaluate_takes_reached (id : Nat) (e : Engine α) :
    (∀ n r, let m := Machine.step^[n] (Machine.start e.store e.diagnostics id)
      m.store.pending r = taken r m.event?.toList ++ m.step.store.pending r) ∧
    (∀ r, e.store.Reaches id r →
      taken r (e.trace id) = e.store.pending r ∧ (e.evaluate id).2.store.pending r = []) ∧
    (∀ r, ¬ e.store.Reaches id r →
      taken r (e.trace id) = [] ∧
      (e.evaluate id).2.store.registers[r]? = e.store.registers[r]?) ∧
    e.store.SameText (e.evaluate id).2.store := by
  have h := evaluates_evaluate id e
  refine ⟨fun n r => Machine.pending_step _ r, ?_, ?_, h.advances.toSameText⟩
  · intro r reached
    exact ⟨h.taken_reached reached, h.pending_reached reached⟩
  · intro r unreached
    exact ⟨h.taken_unreached unreached, h.getElem?_unreached unreached⟩

end Engine

end RegisterCalculator
