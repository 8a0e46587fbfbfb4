import RegisterCalculator.Proofs.Evaluation

namespace RegisterCalculator.Engine

variable {α : Type}

def pendingTotal (e : Engine α) : Nat := e.store.pendingTotal

theorem pendingTotal_setPending {e : Engine α} {id : Nat} {i : Instruction}
    {rest : List Instruction} (waits : e.store.pending id = i :: rest) :
    (e.setPending id rest).pendingTotal < e.pendingTotal := by
  have spent := Store.pendingTotal_setPending waits
  simp only [pendingTotal, setPending]
  omega

@[simp] theorem pendingTotal_setValue (e : Engine α) (id : Nat) (value : α) :
    (e.setValue id value).pendingTotal = e.pendingTotal := Store.pendingTotal_setValue ..

/-- The value that a register hands back and the engine it leaves. No more is pending than
before. -/
structure Visit (e : Engine α) where
  value : α
  engine : Engine α
  pendingTotal_le : engine.pendingTotal ≤ e.pendingTotal

def Visit.after {e e' : Engine α} (v : Visit e') (le : e'.pendingTotal ≤ e.pendingTotal) :
    Visit e :=
  ⟨v.value, v.engine, Nat.le_trans v.pendingTotal_le le⟩

variable [Accumulator α]

/-- Evaluation by plain recursion. A register takes one instruction after the other off its queue,
which a visit of the register from within finds as far as it has come. The value to the left of a
register is read before that register is visited. -/
def visit (id : Nat) (e : Engine α) : Visit e :=
  match waits : e.store.pending id with
  | [] => ⟨e.store.value id, e, Nat.le_refl _⟩
  | ⟨op, operand⟩ :: rest =>
    have less := pendingTotal_setPending waits
    match operand with
    | .literal x =>
      let value := Accumulator.apply op (e.store.value id) (Accumulator.ofLiteral x)
      (visit id ((e.setPending id rest).setValue id value)).after (by
        rw [pendingTotal_setValue]
        exact Nat.le_of_lt less)
    | .register name =>
      match e.store.find? name with
      | some operand =>
        let inner := visit operand (e.setPending id rest)
        let value := Accumulator.apply op (e.store.value id) inner.value
        (visit id (inner.engine.setValue id value)).after (by
          rw [pendingTotal_setValue]
          exact Nat.le_trans inner.pendingTotal_le (Nat.le_of_lt less))
      | none =>
        (visit id ((e.setPending id rest).report id name)).after (Nat.le_of_lt less)
termination_by e.pendingTotal
decreasing_by
  · rw [pendingTotal_setValue]
    exact less
  · exact less
  · rw [pendingTotal_setValue]
    exact Nat.lt_of_le_of_lt (Visit.pendingTotal_le _) less
  · exact less

def recurse (id : Nat) (e : Engine α) : α × Engine α := ((e.visit id).value, (e.visit id).engine)

theorem recurse_eq (id : Nat) (e : Engine α) :
    e.recurse id =
      match e.store.pending id with
      | [] => (e.store.value id, e)
      | ⟨op, .literal x⟩ :: rest =>
        ((e.setPending id rest).setValue id
          (Accumulator.apply op (e.store.value id) (Accumulator.ofLiteral x))).recurse id
      | ⟨op, .register name⟩ :: rest =>
        match e.store.find? name with
        | some operand =>
          let (x, between) := (e.setPending id rest).recurse operand
          (between.setValue id (Accumulator.apply op (e.store.value id) x)).recurse id
        | none => ((e.setPending id rest).report id name).recurse id := by
  simp only [recurse]
  rw [visit]
  split
  · next empty => simp only [empty]
  · next op operand rest waits =>
    cases operand with
    | literal x =>
      simp only [waits]
      rfl
    | register name =>
      simp only [waits]
      split
      · rfl
      · rfl

theorem evaluates_recurse (id : Nat) (e : Engine α) :
    ∃ events, Evaluates id e events (e.recurse id).1 (e.recurse id).2 := by
  induction id, e using visit.induct with
  | case1 id e empty =>
    rw [recurse_eq]
    simp only [empty]
    exact ⟨_, .drained empty⟩
  | case2 id e op rest x waits value _ _ ih =>
    obtain ⟨events, more⟩ := ih
    rw [recurse_eq]
    simp only [waits]
    exact ⟨_, .literal waits more⟩
  | case3 id e op rest name waits operand found inner value _ _ ihEnters ih =>
    obtain ⟨innerEvents, enters⟩ := ihEnters
    obtain ⟨events, more⟩ := ih
    rw [recurse_eq]
    simp only [waits, found]
    exact ⟨_, .entered waits found enters more⟩
  | case4 id e op rest name waits absent _ _ ih =>
    obtain ⟨events, more⟩ := ih
    rw [recurse_eq]
    simp only [waits, absent]
    exact ⟨_, .missing waits absent more⟩

theorem evaluate_of_evaluates {id : Nat} {e e' : Engine α} {events : List (Event α)} {value : α}
    (h : Evaluates id e events value e') : e.evaluate id = (value, e') := by
  have run : (Machine.start e.store e.diagnostics id).run = Machine.of e' [] value :=
    (h.run_enter [] Accumulator.zero).1.trans (Machine.run_nil ..)
  simp only [evaluate, run, Machine.of]

/-- The loop over an explicit stack of frames is plain recursion: it gives the same value, leaves
the same registers and records the same diagnostics in the same order, for every engine. -/
theorem evaluate_eq_recurse (id : Nat) (e : Engine α) : e.evaluate id = e.recurse id := by
  obtain ⟨events, h⟩ := evaluates_recurse id e
  exact evaluate_of_evaluates h

def trace (id : Nat) (e : Engine α) : List (Event α) :=
  (Machine.start e.store e.diagnostics id).trace

theorem evaluates_evaluate (id : Nat) (e : Engine α) :
    Evaluates id e (e.trace id) (e.evaluate id).1 (e.evaluate id).2 := by
  obtain ⟨events, h⟩ := evaluates_recurse id e
  have trace : e.trace id = events :=
    (h.run_enter [] Accumulator.zero).2.trans (by rw [Machine.trace_nil, List.append_nil])
  rwa [evaluate_of_evaluates h, trace]

end RegisterCalculator.Engine
