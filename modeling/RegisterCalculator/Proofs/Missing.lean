import Mathlib.Data.List.Nodup
import Mathlib.Data.List.Range
import RegisterCalculator.Proofs.Reach

namespace RegisterCalculator

namespace Store

variable {α : Type}

/-- What an instruction of a register gives rise to: it names a register that does not exist. -/
def complaint? (s : Store α) (r : Nat) (i : Instruction) : Option Diagnostic :=
  match i.operand with
  | .literal _ => none
  | .register name =>
    match s.find? name with
    | some _ => none
    | none => some ⟨s.name r, .registerNotFound name⟩

/-- One diagnostic for each pending instruction of a register that names no register. -/
def missing (s : Store α) (r : Nat) : List Diagnostic := (s.pending r).filterMap (s.complaint? r)

def complaints (s : Store α) (events : List (Event α)) : List Diagnostic :=
  events.filterMap fun
    | .take r i => s.complaint? r i
    | .leave _ _ => none

theorem complaints_take (s : Store α) (r : Nat) (i : Instruction) (events : List (Event α)) :
    s.complaints (.take r i :: events) = (s.complaint? r i).toList ++ s.complaints events := by
  cases complains : s.complaint? r i <;> simp [complaints, complains]

theorem complaints_append (s : Store α) (events more : List (Event α)) :
    s.complaints (events ++ more) = s.complaints events ++ s.complaints more :=
  List.filterMap_append

theorem mem_complaints {s : Store α} {d : Diagnostic} {events : List (Event α)} :
    d ∈ s.complaints events ↔ ∃ r i, .take r i ∈ events ∧ s.complaint? r i = some d := by
  simp only [complaints, List.mem_filterMap]
  constructor
  · rintro ⟨event, mem, complains⟩
    cases event with
    | take r i => exact ⟨r, i, mem, complains⟩
    | leave r value => simp at complains
  · rintro ⟨r, i, mem, complains⟩
    exact ⟨_, mem, complains⟩

theorem complaint?_eq_some {s : Store α} {r : Nat} {i : Instruction} {d : Diagnostic}
    (complains : s.complaint? r i = some d) :
    ∃ name, i.operand = .register name ∧ s.find? name = none ∧
      d = ⟨s.name r, .registerNotFound name⟩ := by
  unfold complaint? at complains
  split at complains
  · simp at complains
  · next name operand =>
    split at complains
    · simp at complains
    · next absent => exact ⟨name, operand, absent, (Option.some.inj complains).symm⟩

theorem register_of_complaint? {s : Store α} {r : Nat} {i : Instruction} {d : Diagnostic}
    (complains : s.complaint? r i = some d) : d.register = s.name r := by
  obtain ⟨_, _, _, rfl⟩ := complaint?_eq_some complains
  rfl

theorem filter_complaints (s : Store α) (r : Nat) (events : List (Event α))
    (apart : ∀ r' i, .take r' i ∈ events → s.name r' = s.name r → r' = r) :
    (s.complaints events).filter (·.register = s.name r) =
      (taken r events).filterMap (s.complaint? r) := by
  rw [complaints, taken, List.filter_filterMap, List.filterMap_filterMap]
  apply List.filterMap_congr
  intro event mem
  cases event with
  | leave r' value => rfl
  | take r' i =>
    by_cases same : r' = r
    · subst same
      cases complains : s.complaint? r' i with
      | none => simp [Event.taken?, complains]
      | some d => simp [Event.taken?, complains, register_of_complaint? complains]
    · have silent : ∀ d, s.complaint? r' i = some d → d.register ≠ s.name r := by
        intro d complains
        rw [register_of_complaint? complains]
        exact fun h => same (apart r' i mem h)
      simpa [Event.taken?, same] using silent

theorem name_eq (s : Store α) (r : Nat) : s.name r = (s.registers.map Register.name)[r]?.getD "" := by
  rw [Array.getElem?_map, name]
  cases s.registers[r]? <;> rfl

theorem SameText.complaint?_eq {s t : Store α} (h : s.SameText t) (r : Nat) (i : Instruction) :
    t.complaint? r i = s.complaint? r i := by
  simp only [complaint?, find?, name_eq, h.index, h.names]

theorem SameText.name_eq {s t : Store α} (h : s.SameText t) (r : Nat) : t.name r = s.name r := by
  rw [Store.name_eq, Store.name_eq, h.names]

theorem SameText.complaints_eq {s t : Store α} (h : s.SameText t) (events : List (Event α)) :
    t.complaints events = s.complaints events := by
  simp only [complaints, h.complaint?_eq]

theorem find?_name {s : Store α} {r : Nat} (here : r < s.size) : s.find? (s.name r) = some r := by
  rw [find?_eq_some_iff, name, Array.getElem?_eq_getElem here]
  rfl

theorem name_injective {s : Store α} {r t : Nat} (hr : r < s.size) (ht : t < s.size)
    (same : s.name r = s.name t) : r = t := by
  have found := find?_name hr
  rw [same, find?_name ht] at found
  exact (Option.some.inj found).symm

/-- Names tell the registers within reach apart, where one of them has something pending. The other
may be no register at all, but then nothing else is within reach. -/
theorem eq_of_name_eq {s : Store α} {id r t : Nat} {i : Instruction} (hr : s.Reaches id r)
    (ht : s.Reaches id t) (waits : i ∈ s.pending t) (same : s.name t = s.name r) : t = r := by
  have here := lt_size_of_mem waits
  rcases eq_or_lt_size_of_reaches hr with rfl | inside
  · cases Relation.ReflTransGen.cases_head ht with
    | inl same => exact same.symm
    | inr first =>
      obtain ⟨_, ⟨j, waits, _⟩, _⟩ := first
      exact name_injective here (lt_size_of_mem waits) same
  · exact name_injective here inside same

end Store

theorem perm_flatMap_filter {β κ : Type} [DecidableEq κ] (key : β → κ) {keys : List κ}
    (distinct : keys.Nodup) {l : List β} (covered : ∀ x ∈ l, key x ∈ keys) :
    l.Perm (keys.flatMap fun k => l.filter (key · = k)) := by
  induction keys generalizing l with
  | nil =>
    have none : l = [] := List.eq_nil_iff_forall_not_mem.mpr fun x mem => by simpa using covered x mem
    simp [none]
  | cons k keys ih =>
    have ⟨fresh, distinct⟩ := List.nodup_cons.mp distinct
    let others := l.filter fun x => !decide (key x = k)
    have rest : others.Perm (keys.flatMap fun k => others.filter (key · = k)) := by
      apply ih distinct
      intro x mem
      obtain ⟨mem, other⟩ := List.mem_filter.mp mem
      simpa [show key x ≠ k by simpa using other] using covered x mem
    have same : ∀ k' ∈ keys, others.filter (key · = k') = l.filter (key · = k') := by
      intro k' mem
      rw [List.filter_filter]
      apply List.filter_congr
      intro x _
      by_cases here : key x = k'
      · simp [here, show k' ≠ k from fun h => fresh (h ▸ mem)]
      · simp [here]
    rw [List.flatMap_cons]
    rw [List.flatMap_congr same] at rest
    exact (List.filter_append_perm _ l).symm.trans (rest.append_left _)

theorem flatMap_eq_flatMap_filter {β γ : Type} {p : β → Bool} {g g' : β → List γ} {l : List β}
    (inside : ∀ x, p x = true → g x = g' x) (outside : ∀ x, p x = false → g x = []) :
    l.flatMap g = (l.filter p).flatMap g' := by
  induction l with
  | nil => rfl
  | cons x l ih =>
    cases holds : p x with
    | true => simp [holds, inside x holds, ih]
    | false => simp [holds, outside x holds, ih]

/-- The diagnostics that events give rise to, put in the order of the registers. -/
theorem Store.complaints_perm {α : Type} (s : Store α) {events : List (Event α)}
    (inside : ∀ r i, .take r i ∈ events → r < s.size) :
    (s.complaints events).Perm
      ((List.range s.size).flatMap fun r => (taken r events).filterMap (s.complaint? r)) := by
  have distinct : ((List.range s.size).map s.name).Nodup := by
    apply List.nodup_range.map_on
    intro r hr t ht same
    exact name_injective (List.mem_range.mp hr) (List.mem_range.mp ht) same
  have covered : ∀ d ∈ s.complaints events, d.register ∈ (List.range s.size).map s.name := by
    intro d mem
    obtain ⟨r, i, takes, complains⟩ := mem_complaints.mp mem
    rw [register_of_complaint? complains]
    exact List.mem_map_of_mem (List.mem_range.mpr (inside r i takes))
  have parts := perm_flatMap_filter Diagnostic.register distinct covered
  rw [List.flatMap_map] at parts
  refine parts.trans (.of_eq (List.flatMap_congr ?_))
  intro r hr
  apply filter_complaints
  intro t i takes same
  exact name_injective (inside t i takes) (List.mem_range.mp hr) same

namespace Evaluates

variable {α : Type} [Accumulator α] {id : Nat} {e e' : Engine α} {events : List (Event α)}
  {value : α}

theorem diagnostics_eq_append (h : Evaluates id e events value e') :
    e'.diagnostics.toList = e.diagnostics.toList ++ e.store.complaints events := by
  induction h with
  | drained _ => simp [Store.complaints]
  | literal waits _ ih =>
    simp only [Engine.store_setValue, Engine.store_setPending,
      (Store.Advances.folded waits _).complaints_eq] at ih
    exact ih
  | @missing id e op name rest events value e' waits absent _ ih =>
    have popped := Store.Advances.setPending waits
    have complains : e.store.complaint? id ⟨op, .register name⟩ =
        some ⟨e.store.name id, .registerNotFound name⟩ := by
      simp [Store.complaint?, absent]
    simp only [Engine.diagnostics_report, Engine.diagnostics_setPending, Engine.store_report,
      Engine.store_setPending, popped.complaints_eq, popped.name_eq, Array.toList_push,
      List.append_assoc] at ih
    rw [ih, Store.complaints_take, complains]
    rfl
  | @entered id e op name rest operand inner x between events value e' waits found enters _ ihEnters
      ih =>
    simp only [(advances_between waits enters _).complaints_eq, Engine.diagnostics_setValue] at ih
    simp only [Engine.store_setPending, (Store.Advances.setPending waits).complaints_eq,
      Engine.diagnostics_setPending] at ihEnters
    have quiet : e.store.complaint? id ⟨op, .register name⟩ = none := by
      simp [Store.complaint?, found]
    rw [ih, ihEnters, Store.complaints_take, quiet, Store.complaints_append]
    simp

/-- Two registers within reach may be visited in turns, so that their diagnostics interleave. Those
with the name of one of them still come in the order of its queue. -/
theorem filter_complaints (h : Evaluates id e events value e') {r : Nat}
    (reached : e.store.Reaches id r) :
    (e.store.complaints events).filter (·.register = e.store.name r) = e.store.missing r := by
  have apart : ∀ t i, .take t i ∈ events → e.store.name t = e.store.name r → t = r := by
    intro t i takes same
    have reachedToo : e.store.Reaches id t := h.reaches_of_mem takes
    have waits : i ∈ e.store.pending t := h.mem_pending_of_take takes
    exact Store.eq_of_name_eq reached reachedToo waits same
  rw [Store.filter_complaints e.store r events apart, h.taken_reached reached, Store.missing]

open Classical in
theorem complaints_perm (h : Evaluates id e events value e') :
    (e.store.complaints events).Perm
      (((List.range e.store.size).filter (e.store.Reaches id ·)).flatMap e.store.missing) := by
  have inside : ∀ r i, .take r i ∈ events → r < e.store.size := fun r i takes =>
    Store.lt_size_of_mem (h.mem_pending_of_take takes)
  refine (e.store.complaints_perm inside).trans (.of_eq ?_)
  apply flatMap_eq_flatMap_filter
  · intro r reached
    rw [h.taken_reached (of_decide_eq_true reached), Store.missing]
  · intro r unreached
    rw [h.taken_unreached (of_decide_eq_false unreached), List.filterMap_nil]

end Evaluates

namespace Engine

variable {α : Type} [Accumulator α]

open Classical in
/-- An evaluation records one diagnostic for each instruction that is pending in a register within
reach and names no register, and nothing else. Those of one register come in the order of its
queue, behind what was recorded before. -/
theorem evaluate_reports_missing (id : Nat) (e : Engine α) :
    ∃ reported : List Diagnostic,
      (e.evaluate id).2.diagnostics.toList = e.diagnostics.toList ++ reported ∧
      reported.Perm (((List.range e.store.size).filter (e.store.Reaches id ·)).flatMap
        e.store.missing) ∧
      ∀ r, e.store.Reaches id r →
        reported.filter (·.register = e.store.name r) = e.store.missing r := by
  have h := evaluates_evaluate id e
  refine ⟨e.store.complaints (e.trace id), h.diagnostics_eq_append, h.complaints_perm, ?_⟩
  intro r reached
  exact h.filter_complaints reached

end Engine

end RegisterCalculator
