import RegisterCalculator.Proofs.Denotation
import RegisterCalculator.Proofs.Missing

namespace RegisterCalculator

namespace Store

variable {α : Type} {s t : Store α}

theorem SameText.getElem?_eq [Accumulator α] (h : s.SameText t) {r : Nat}
    (pending : s.pending r = t.pending r) (value : s.value r = t.value r) :
    s.registers[r]? = t.registers[r]? := by
  have name := congrArg (·[r]?) h.names
  have definition := congrArg (·[r]?) h.definitions
  simp only [Array.getElem?_map] at name definition
  cases hs : s.registers[r]? with
  | none =>
    cases ht : t.registers[r]? with
    | none => rfl
    | some b => simp [hs, ht] at name
  | some a =>
    cases ht : t.registers[r]? with
    | none => simp [hs, ht] at name
    | some b =>
      simp only [hs, ht, Option.map_some, Option.some.injEq] at name definition
      simp only [Store.pending, Store.value, hs, ht, Option.elim_some] at pending value
      cases a
      cases b
      simp_all

end Store

namespace Engine

variable {α : Type} [Accumulator α]

/-- Evaluates one register after the other in the same pass. -/
def evaluateAll : List Nat → Engine α → List α × Engine α
  | [], e => ([], e)
  | id :: ids, e =>
    let (value, e) := e.evaluate id
    let (values, e) := evaluateAll ids e
    (value :: values, e)

def traceAll : List Nat → Engine α → List (Event α)
  | [], _ => []
  | id :: ids, e => e.trace id ++ traceAll ids (e.evaluate id).2

theorem advances_evaluateAll (ids : List Nat) (e : Engine α) :
    e.store.Advances (evaluateAll ids e).2.store := by
  induction ids generalizing e with
  | nil => exact .refl _
  | cons id ids ih => exact (evaluates_evaluate id e).advances.trans (ih _)

theorem pending_evaluateAll (ids : List Nat) (e : Engine α) (r : Nat) :
    e.store.pending r = taken r (traceAll ids e) ++ (evaluateAll ids e).2.store.pending r := by
  induction ids generalizing e with
  | nil => rfl
  | cons id ids ih =>
    rw [(evaluates_evaluate id e).pending_eq_append r, ih, traceAll, taken_append,
      List.append_assoc]
    rfl

theorem diagnostics_evaluateAll (ids : List Nat) (e : Engine α) :
    (evaluateAll ids e).2.diagnostics.toList =
      e.diagnostics.toList ++ e.store.complaints (traceAll ids e) := by
  induction ids generalizing e with
  | nil => simp [evaluateAll, traceAll, Store.complaints]
  | cons id ids ih =>
    have h := evaluates_evaluate id e
    calc (evaluateAll (id :: ids) e).2.diagnostics.toList
        = (e.evaluate id).2.diagnostics.toList ++
            (e.evaluate id).2.store.complaints (traceAll ids (e.evaluate id).2) := ih _
      _ = e.diagnostics.toList ++ e.store.complaints (traceAll (id :: ids) e) := by
          rw [h.diagnostics_eq_append, h.advances.complaints_eq, traceAll,
            Store.complaints_append, List.append_assoc]

theorem getElem?_evaluateAll {ids : List Nat} {e : Engine α} {r : Nat}
    (unreached : ∀ id ∈ ids, ¬ e.store.Reaches id r) :
    (evaluateAll ids e).2.store.registers[r]? = e.store.registers[r]? := by
  induction ids generalizing e with
  | nil => rfl
  | cons id ids ih =>
    have h := evaluates_evaluate id e
    obtain ⟨first, others⟩ := List.forall_mem_cons.mp unreached
    calc (evaluateAll (id :: ids) e).2.store.registers[r]?
        = (e.evaluate id).2.store.registers[r]? :=
          ih fun id mem reaches => others id mem (h.advances.reaches reaches)
      _ = e.store.registers[r]? := h.getElem?_unreached first

theorem pending_evaluateAll_of_mem {ids : List Nat} {e : Engine α} {id : Nat} (mem : id ∈ ids) :
    (evaluateAll ids e).2.store.pending id = [] := by
  induction ids generalizing e with
  | nil => simp at mem
  | cons first ids ih =>
    rcases List.mem_cons.mp mem with rfl | mem
    · exact (advances_evaluateAll ids _).pending_eq_nil (evaluates_evaluate id e).pending_self
    · exact ih mem

theorem pending_evaluateAll_of_take {ids : List Nat} {e : Engine α} {r t : Nat} {i : Instruction}
    {name : String} (takes : .take r i ∈ traceAll ids e) (operand : i.operand = .register name)
    (found : e.store.find? name = some t) : (evaluateAll ids e).2.store.pending t = [] := by
  induction ids generalizing e with
  | nil => simp [traceAll] at takes
  | cons id ids ih =>
    have h := evaluates_evaluate id e
    rcases List.mem_append.mp takes with takes | takes
    · have drained := (h.pending_of_take takes).2 name t operand found
      exact (advances_evaluateAll ids _).pending_eq_nil drained
    · exact ih takes ((h.advances.find?_eq name).trans found)

/-- What is within reach of one of the registers is worked off in the end, though another of them
may have been there first and have broken the way to it. -/
theorem pending_evaluateAll_of_reaches {ids : List Nat} {e : Engine α} {id r : Nat} (mem : id ∈ ids)
    (reached : e.store.Reaches id r) : (evaluateAll ids e).2.store.pending r = [] := by
  induction reached with
  | refl => exact pending_evaluateAll_of_mem mem
  | @tail r t _ leads ih =>
    obtain ⟨i, waits, name, operand, found⟩ := leads
    -- `r` is worked off, so the instruction that leads on to `t` was taken by one of the visits
    rw [pending_evaluateAll ids e r, ih, List.append_nil] at waits
    exact pending_evaluateAll_of_take (mem_taken.mp waits) operand found

theorem settled_evaluateAll {ids : List Nat} {e : Engine α} {meaning : Nat → α}
    (acyclic : ∀ id ∈ ids, e.store.Acyclic id)
    (settled : ∀ id ∈ ids, ∀ r, e.store.Reaches id r → e.store.Settled meaning r) :
    (evaluateAll ids e).1 = ids.map meaning ∧
    ∀ r, e.store.Settled meaning r → (evaluateAll ids e).2.store.Settled meaning r := by
  induction ids generalizing e with
  | nil => exact ⟨rfl, fun _ h => h⟩
  | cons id ids ih =>
    have h := evaluates_evaluate id e
    obtain ⟨acyclicFirst, acyclic⟩ := List.forall_mem_cons.mp acyclic
    obtain ⟨settledFirst, settled⟩ := List.forall_mem_cons.mp settled
    obtain ⟨keeps, _⟩ := h.settled acyclicFirst settledFirst
    obtain ⟨values, keepsAll⟩ := ih (fun id mem => h.advances.acyclic (acyclic id mem))
      fun id mem r reached => keeps r (settled id mem r (h.advances.reaches reached))
    have value : (e.evaluate id).1 = meaning id :=
      h.value_eq_of_settled (keeps id (settledFirst id .refl))
    refine ⟨?_, fun r settled => keepsAll r (keeps r settled)⟩
    rw [List.map_cons, ← value, ← values]
    rfl

theorem evaluateAll_denotes {ids : List Nat} {e : Engine α}
    (acyclic : ∀ id ∈ ids, e.store.Acyclic id) :
    (evaluateAll ids e).1 = ids.map e.store.meaning ∧
    ∀ id ∈ ids, ∀ r, e.store.Reaches id r →
      (evaluateAll ids e).2.store.value r = e.store.meaning r := by
  have settled : ∀ id ∈ ids, ∀ r, e.store.Reaches id r → e.store.Settled e.store.meaning r := by
    intro id mem r reached
    exact Store.settled_meaning ((acyclic id mem).of_reaches reached).grounded
  obtain ⟨values, keeps⟩ := settled_evaluateAll acyclic settled
  refine ⟨values, ?_⟩
  intro id mem r reached
  have done := keeps r (settled id mem r reached)
  rwa [Store.Settled, pending_evaluateAll_of_reaches mem reached, List.foldl_nil] at done

theorem store_evaluateAll_eq {ids ids' : List Nat} {e : Engine α}
    (acyclic : ∀ id ∈ ids, e.store.Acyclic id) (same : ∀ id, id ∈ ids ↔ id ∈ ids') :
    (evaluateAll ids e).2.store = (evaluateAll ids' e).2.store := by
  have acyclic' : ∀ id ∈ ids', e.store.Acyclic id := fun id mem => acyclic id ((same id).mpr mem)
  have text := (advances_evaluateAll ids e).toSameText.symm.trans
    (advances_evaluateAll ids' e).toSameText
  apply Store.ext text.index.symm
  intro r
  by_cases reached : ∃ id ∈ ids, e.store.Reaches id r
  · obtain ⟨id, mem, reached⟩ := reached
    have mem' := (same id).mp mem
    apply text.getElem?_eq
    · rw [pending_evaluateAll_of_reaches mem reached, pending_evaluateAll_of_reaches mem' reached]
    · rw [(evaluateAll_denotes acyclic).2 id mem r reached,
        (evaluateAll_denotes acyclic').2 id mem' r reached]
  · have unreached : ∀ id ∈ ids, ¬ e.store.Reaches id r := fun id mem h => reached ⟨id, mem, h⟩
    rw [getElem?_evaluateAll unreached,
      getElem?_evaluateAll fun id mem => unreached id ((same id).mpr mem)]

/-- Runs that take the same instructions off each queue record the same diagnostics, each as often,
though perhaps in another order. -/
theorem complaints_evaluateAll_perm {ids ids' : List Nat} {e : Engine α}
    (same : (evaluateAll ids e).2.store = (evaluateAll ids' e).2.store) :
    (e.store.complaints (traceAll ids e)).Perm (e.store.complaints (traceAll ids' e)) := by
  have inside : ∀ ids r i, .take r i ∈ traceAll ids e → r < e.store.size := by
    intro ids r i takes
    apply Store.lt_size_of_mem
    rw [pending_evaluateAll ids e r]
    exact List.mem_append_left _ (mem_taken.mpr takes)
  have taken_eq : ∀ r, taken r (traceAll ids e) = taken r (traceAll ids' e) := by
    intro r
    have pending := (pending_evaluateAll ids e r).symm.trans (pending_evaluateAll ids' e r)
    rw [same] at pending
    exact List.append_cancel_right pending
  refine (e.store.complaints_perm (inside ids)).trans ?_
  simp only [taken_eq]
  exact (e.store.complaints_perm (inside ids')).symm

/-- Without a cycle it makes no difference in which order registers are evaluated in a pass: each
gives what it stood for at the start, the registers end up the same, and the same diagnostics are
recorded up to their order. -/
theorem evaluateAll_perm {ids ids' : List Nat} {e : Engine α}
    (acyclic : ∀ id ∈ ids, e.store.Acyclic id) (perm : ids.Perm ids') :
    (evaluateAll ids e).1 = ids.map e.store.meaning ∧
    (evaluateAll ids' e).1 = ids'.map e.store.meaning ∧
    (evaluateAll ids e).2.store = (evaluateAll ids' e).2.store ∧
    ∃ reported reported' : List Diagnostic,
      (evaluateAll ids e).2.diagnostics.toList = e.diagnostics.toList ++ reported ∧
      (evaluateAll ids' e).2.diagnostics.toList = e.diagnostics.toList ++ reported' ∧
      reported.Perm reported' := by
  have acyclic' : ∀ id ∈ ids', e.store.Acyclic id := fun id mem => acyclic id (perm.mem_iff.mpr mem)
  have store := store_evaluateAll_eq acyclic fun id => perm.mem_iff
  refine ⟨(evaluateAll_denotes acyclic).1, (evaluateAll_denotes acyclic').1, store, _, _,
    diagnostics_evaluateAll ids e, diagnostics_evaluateAll ids' e, ?_⟩
  exact complaints_evaluateAll_perm store

theorem evaluateAll_perm_shared :
    (∀ id ∈ [2, 0, 1, 2], shared.store.Acyclic id) ∧ [2, 0, 1, 2].Perm [1, 2, 2, 0] ∧
    (evaluateAll [2, 0, 1, 2] shared).2.store = (evaluateAll [1, 2, 2, 0] shared).2.store := by
  have a : shared.store.Reaches 2 0 := .single (by decide +kernel)
  have b : shared.store.Reaches 2 1 := .single (by decide +kernel)
  have acyclic : ∀ id ∈ [2, 0, 1, 2], shared.store.Acyclic id := by
    simp only [List.forall_mem_cons, List.not_mem_nil, false_implies, implies_true, and_true]
    exact ⟨acyclic_shared, acyclic_shared.of_reaches a, acyclic_shared.of_reaches b,
      acyclic_shared⟩
  have perm : [2, 0, 1, 2].Perm [1, 2, 2, 0] := by decide
  exact ⟨acyclic, perm, (evaluateAll_perm acyclic perm).2.2.1⟩

end Engine

end RegisterCalculator
