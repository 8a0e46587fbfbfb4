import Mathlib.Data.Fintype.Card
import Mathlib.Order.Interval.Set.Nat
import RegisterCalculator.Proofs.Reach

namespace RegisterCalculator

namespace Store

variable {α : Type}

/-- Nothing within reach of a register leads back to itself. -/
def Acyclic (s : Store α) (id : Nat) : Prop :=
  ∀ r, s.Reaches id r → ¬ Relation.TransGen s.Leads r r

/-- Every chain of references from a register ends. -/
def Grounded (s : Store α) : Nat → Prop := Acc fun t r => s.Leads r t

theorem Grounded.of_leads {s : Store α} {r t : Nat} (grounded : s.Grounded r)
    (leads : s.Leads r t) : s.Grounded t :=
  Acc.inv grounded leads

theorem Acyclic.of_reaches {s : Store α} {id r : Nat} (acyclic : s.Acyclic id)
    (reached : s.Reaches id r) : s.Acyclic r :=
  fun t further => acyclic t (reached.trans further)

theorem Advances.acyclic {s t : Store α} (h : s.Advances t) {id : Nat} (acyclic : s.Acyclic id) :
    t.Acyclic id := by
  intro r reached cycle
  exact acyclic r (h.reaches reached) (Relation.TransGen.mono (fun _ _ => h.leads) r r cycle)

theorem finite_reached (s : Store α) (id : Nat) : {r | s.Reaches id r}.Finite := by
  apply (Set.finite_le_nat (max id s.size)).subset
  intro r reached
  rcases eq_or_lt_size_of_reaches reached with rfl | inside
  · exact Nat.le_max_left ..
  · exact Nat.le_trans (Nat.le_of_lt inside) (Nat.le_max_right ..)

theorem acyclic_of_descends {s : Store α} (descends : ∀ r t, s.Leads r t → t < r) (id : Nat) :
    s.Acyclic id := by
  have down : ∀ r t, Relation.TransGen s.Leads r t → t < r := by
    intro r t chain
    induction chain with
    | single leads => exact descends _ _ leads
    | tail _ leads ih => exact Nat.lt_trans (descends _ _ leads) ih
  exact fun r _ cycle => Nat.lt_irrefl r (down r r cycle)

/-- Only finitely many registers are within reach, so without a cycle every chain ends. -/
theorem Acyclic.grounded {s : Store α} {id : Nat} (acyclic : s.Acyclic id) : s.Grounded id := by
  have : Finite {r // s.Reaches id r} := (s.finite_reached id).to_subtype
  let Below (t r : {r // s.Reaches id r}) : Prop := Relation.TransGen s.Leads r t
  have : IsTrans _ Below := ⟨fun _ _ _ h k => k.trans h⟩
  have : Std.Irrefl Below := ⟨fun r => acyclic r r.2⟩
  have below : WellFounded Below := Finite.wellFounded_of_trans_of_irrefl Below
  have all : ∀ r : {r // s.Reaches id r}, s.Grounded r := by
    intro r
    induction r using below.induction with
    | _ r ih => exact .intro _ fun t leads => ih ⟨t, r.2.tail leads⟩ (.single leads)
  exact all ⟨id, .refl⟩

variable [Accumulator α]

/-- The value that a register stands for: what is pending in it, folded over the value it holds. A
register that an instruction names counts with the value that it stands for in turn, and an
instruction that names no register is passed over. -/
def denote (s : Store α) (r : Nat) (grounded : s.Grounded r) : α :=
  (s.pending r).attach.foldl (fun value ⟨i, waits⟩ =>
    match operand : i.operand with
    | .literal x => Accumulator.apply i.operation value (Accumulator.ofLiteral x)
    | .register name =>
      match found : s.find? name with
      | some t => Accumulator.apply i.operation value
          (denote s t (grounded.of_leads ⟨i, waits, name, operand, found⟩))
      | none => value) (s.value r)
termination_by (⟨r, grounded⟩ : {r // Acc (fun t r => s.Leads r t) r})
decreasing_by exact ⟨i, waits, name, operand, found⟩

def foldIn (s : Store α) (meaning : Nat → α) (value : α) (i : Instruction) : α :=
  match i.operand with
  | .literal x => Accumulator.apply i.operation value (Accumulator.ofLiteral x)
  | .register name =>
    match s.find? name with
    | some t => Accumulator.apply i.operation value (meaning t)
    | none => value

/-- What is pending in a register, folded over its value, gives what the register stands for. A
register with nothing pending holds it. -/
def Settled (s : Store α) (meaning : Nat → α) (r : Nat) : Prop :=
  (s.pending r).foldl (s.foldIn meaning) (s.value r) = meaning r

instance [DecidableEq α] (s : Store α) (meaning : Nat → α) (r : Nat) :
    Decidable (s.Settled meaning r) :=
  inferInstanceAs (Decidable (_ = _))

theorem denote_eq_foldl (s : Store α) (r : Nat) (grounded : s.Grounded r) (meaning : Nat → α)
    (agrees : ∀ t (leads : s.Leads r t), meaning t = s.denote t (grounded.of_leads leads)) :
    s.denote r grounded = (s.pending r).foldl (s.foldIn meaning) (s.value r) := by
  rw [denote]
  refine Eq.trans (congrArg (fun f => (s.pending r).attach.foldl f (s.value r)) ?_) List.foldl_attach
  funext value ⟨i, waits⟩
  dsimp only
  unfold foldIn
  split
  · next x operand =>
    simp only [operand]
  · next name operand =>
    simp only [operand]
    split
    · next t found =>
      simp only [found, agrees t ⟨i, waits, name, operand, found⟩]
    · next absent =>
      simp only [absent]

theorem denote_eq_of_settled {s : Store α} {meaning : Nat → α} {id : Nat}
    (grounded : s.Grounded id) (settled : ∀ r, s.Reaches id r → s.Settled meaning r) :
    s.denote id grounded = meaning id := by
  induction grounded with
  | intro id ends ih =>
    rw [s.denote_eq_foldl id (.intro id ends) meaning]
    · exact settled id .refl
    · intro t leads
      exact (ih t leads fun r reached => settled r (.head leads reached)).symm

open Classical in
/-- What every register stands for; one whose references do not end counts with its value. -/
noncomputable def meaning (s : Store α) (r : Nat) : α :=
  if grounded : s.Grounded r then s.denote r grounded else s.value r

theorem meaning_eq {s : Store α} {r : Nat} (grounded : s.Grounded r) :
    s.meaning r = s.denote r grounded := dif_pos grounded

theorem settled_meaning {s : Store α} {r : Nat} (grounded : s.Grounded r) :
    s.Settled s.meaning r := by
  rw [Settled, meaning_eq grounded, s.denote_eq_foldl r grounded s.meaning]
  exact fun t leads => meaning_eq (grounded.of_leads leads)

theorem foldIn_eq {s t : Store α} (index : t.index = s.index) (meaning : Nat → α) :
    t.foldIn meaning = s.foldIn meaning := by
  funext value i
  simp only [foldIn, find?, index]

theorem Settled.of_getElem?_eq {s t : Store α} {meaning : Nat → α} {r : Nat}
    (settled : s.Settled meaning r) (same : t.registers[r]? = s.registers[r]?)
    (index : t.index = s.index) : t.Settled meaning r := by
  simp only [Settled, pending, value, same, foldIn_eq index] at settled ⊢
  exact settled

theorem Settled.setValue_of_ne {s : Store α} {meaning : Nat → α} {id r : Nat}
    (settled : s.Settled meaning r) (value : α) (other : id ≠ r) :
    (s.setValue id value).Settled meaning r :=
  settled.of_getElem?_eq (getElem?_setValue_of_ne _ _ other) rfl

theorem Settled.setPending_of_ne {s : Store α} {meaning : Nat → α} {id r : Nat}
    (settled : s.Settled meaning r) (pending : List Instruction) (other : id ≠ r) :
    (s.setPending id pending).Settled meaning r :=
  settled.of_getElem?_eq (getElem?_setPending_of_ne _ _ other) rfl

theorem Settled.folded {s t : Store α} {meaning : Nat → α} {id : Nat} {i : Instruction}
    {rest : List Instruction} (settled : s.Settled meaning id) (waits : s.pending id = i :: rest)
    (index : t.index = s.index) (pending : t.pending id = rest)
    (value : t.value id = s.foldIn meaning (s.value id) i) : t.Settled meaning id := by
  rw [Settled, waits, List.foldl_cons] at settled
  rw [Settled, pending, value, foldIn_eq index, settled]

theorem Settled.literal {s : Store α} {meaning : Nat → α} {id r : Nat} {op : Operation} {x : Int64}
    {rest : List Instruction} (settled : s.Settled meaning r)
    (waits : s.pending id = ⟨op, .literal x⟩ :: rest) :
    ((s.setPending id rest).setValue id
      (Accumulator.apply op (s.value id) (Accumulator.ofLiteral x))).Settled meaning r := by
  have here := lt_size_of_pending waits
  by_cases same : id = r
  · subst same
    apply settled.folded waits
    · rfl
    · simp [pending_setPending, here]
    · simp [value_setValue, here, foldIn]
  · exact (settled.setPending_of_ne _ same).setValue_of_ne _ same

theorem Settled.missing {s : Store α} {meaning : Nat → α} {id r : Nat} {op : Operation}
    {name : String} {rest : List Instruction} (settled : s.Settled meaning r)
    (waits : s.pending id = ⟨op, .register name⟩ :: rest) (absent : s.find? name = none) :
    (s.setPending id rest).Settled meaning r := by
  have here := lt_size_of_pending waits
  by_cases same : id = r
  · subst same
    apply settled.folded waits
    · rfl
    · simp [pending_setPending, here]
    · simp [foldIn, absent]
  · exact settled.setPending_of_ne _ same

end Store

namespace Evaluates

variable {α : Type} [Accumulator α] {id : Nat} {e e' : Engine α} {events : List (Event α)}
  {value : α}

theorem value_eq_of_settled (h : Evaluates id e events value e') {meaning : Nat → α}
    (done : e'.store.Settled meaning id) : value = meaning id := by
  rwa [Store.Settled, h.pending_self, List.foldl_nil, h.value_self] at done

/-- The register that waits is settled again once the value of its operand has been folded in, if
the operand has not led back to it. -/
theorem settled_waiting {op : Operation} {name : String} {rest : List Instruction} {operand : Nat}
    {x : α} {between : Engine α} {meaning : Nat → α}
    (waits : e.store.pending id = ⟨op, .register name⟩ :: rest)
    (found : e.store.find? name = some operand)
    (enters : Evaluates operand (e.setPending id rest) events x between)
    (unreached : ¬ (e.setPending id rest).store.Reaches operand id)
    (settled : e.store.Settled meaning id) (operandValue : x = meaning operand) :
    (between.setValue id (Accumulator.apply op (e.store.value id) x)).store.Settled meaning id := by
  have here : id < e.store.size := Store.lt_size_of_pending waits
  have text := ((Store.Advances.setPending waits).trans enters.advances).toSameText
  have waiting : between.store.pending id = rest := by
    simp only [Store.pending, enters.getElem?_unreached unreached]
    exact (Store.pending_setPending _ _ _ _ here).trans (if_pos rfl)
  apply settled.folded waits
  · exact text.index
  · simpa using waiting
  · simp [Store.value_setValue, text.size_eq, here, Store.foldIn, found, operandValue]

/-- Without a cycle a visit keeps settled what is settled, so that every register that hands a value
back hands back what it stands for. A register that waits is not settled meanwhile, but it is out of
reach of the register that it waits for. -/
theorem settled (h : Evaluates id e events value e') {meaning : Nat → α}
    (acyclic : e.store.Acyclic id)
    (settled : ∀ r, e.store.Reaches id r → e.store.Settled meaning r) :
    (∀ r, e.store.Settled meaning r → e'.store.Settled meaning r) ∧
    ∀ r v, .leave r v ∈ events → v = meaning r := by
  induction h with
  | @drained id e empty =>
    refine ⟨fun r h => h, ?_⟩
    intro r v mem
    obtain ⟨rfl, rfl⟩ := Event.leave.inj (List.mem_singleton.mp mem)
    have here := settled _ .refl
    rwa [Store.Settled, empty] at here
  | literal waits _ ih =>
    have folded := Store.Advances.folded waits
    obtain ⟨keeps, leaves⟩ := ih ((folded _).acyclic acyclic) (by
      intro r reached
      exact (settled r ((folded _).reaches reached)).literal waits)
    refine ⟨fun r h => keeps r (h.literal waits), ?_⟩
    intro r v mem
    exact leaves r v (by simpa using mem)
  | missing waits absent _ ih =>
    have popped := Store.Advances.setPending waits
    obtain ⟨keeps, leaves⟩ := ih (popped.acyclic acyclic) (by
      intro r reached
      exact (settled r (popped.reaches reached)).missing waits absent)
    refine ⟨fun r h => keeps r (h.missing waits absent), ?_⟩
    intro r v mem
    exact leaves r v (by simpa using mem)
  | @entered id e op name rest operand inner x between events value e' waits found enters _ ihEnters
      ih =>
    have popped := Store.Advances.setPending waits
    have after := advances_between waits enters (Accumulator.apply op (e.store.value id) x)
    have leads : e.store.Leads id operand := ⟨_, waits ▸ List.mem_cons_self .., name, rfl, found⟩
    -- the register that waits is out of reach of its operand
    have apart : ∀ r, (e.setPending id rest).store.Reaches operand r → id ≠ r := by
      rintro r reached rfl
      exact acyclic id .refl (.head' leads (popped.reaches reached))
    have inside : ∀ r, (e.setPending id rest).store.Reaches operand r →
        (e.setPending id rest).store.Settled meaning r := by
      intro r reached
      have reachedFirst := Store.reaches_of_head waits found (popped.reaches reached)
      exact (settled r reachedFirst).setPending_of_ne _ (apart r reached)
    obtain ⟨keepsInner, leavesInner⟩ := ihEnters
      (popped.acyclic (acyclic.of_reaches (.single leads))) inside
    have operandValue : x = meaning operand :=
      enters.value_eq_of_settled (keepsInner operand (inside operand .refl))
    have kept : ∀ r, e.store.Settled meaning r →
        (between.setValue id (Accumulator.apply op (e.store.value id) x)).store.Settled
          meaning r := by
      intro r settled
      by_cases same : id = r
      · subst same
        exact settled_waiting waits found enters (fun reached => apart id reached rfl) settled
          operandValue
      · exact (keepsInner r (settled.setPending_of_ne _ same)).setValue_of_ne _ same
    obtain ⟨keeps, leaves⟩ := ih (after.acyclic acyclic)
      fun r reached => kept r (settled r (after.reaches reached))
    refine ⟨fun r h => keeps r (kept r h), ?_⟩
    intro r v mem
    simp only [List.mem_cons, reduceCtorEq, List.mem_append, false_or] at mem
    exact mem.elim (leavesInner r v) (leaves r v)

end Evaluates

namespace Engine

variable {α : Type} [Accumulator α]

/-- Without a cycle an evaluation gives what its register stands for, and in the end every register
within reach holds what it stands for. However many instructions name a register, its own
instructions run once, and it hands back the same value every time. -/
theorem evaluate_denotes (id : Nat) (e : Engine α) (acyclic : e.store.Acyclic id) :
    (e.evaluate id).1 = e.store.denote id acyclic.grounded ∧
    ∀ r (reached : e.store.Reaches id r),
      (e.evaluate id).2.store.value r = e.store.denote r (acyclic.of_reaches reached).grounded ∧
      taken r (e.trace id) = e.store.pending r ∧
      ∀ value, .leave r value ∈ e.trace id →
        value = e.store.denote r (acyclic.of_reaches reached).grounded := by
  have h := evaluates_evaluate id e
  have settled : ∀ r, e.store.Reaches id r → e.store.Settled e.store.meaning r := fun r reached =>
    Store.settled_meaning (acyclic.of_reaches reached).grounded
  obtain ⟨keeps, leaves⟩ := h.settled acyclic settled
  have holds : ∀ r (reached : e.store.Reaches id r), (e.evaluate id).2.store.value r =
      e.store.denote r (acyclic.of_reaches reached).grounded := by
    intro r reached
    have done := keeps r (settled r reached)
    rwa [Store.Settled, h.pending_reached reached, List.foldl_nil, Store.meaning_eq] at done
  refine ⟨h.value_self ▸ holds id .refl, ?_⟩
  intro r reached
  refine ⟨holds r reached, h.taken_reached reached, ?_⟩
  intro value mem
  exact (leaves r value mem).trans (Store.meaning_eq _)

/-- `a` holds 7 and still has to add 2; `b` and `c` both name it, and `b` also names a register that
does not exist. -/
def shared : Engine Int64 :=
  let e := (push "a" ⟨.add, .literal 2⟩ empty).2
  let e := (push "b" ⟨.add, .register "a"⟩ e).2
  let e := (push "b" ⟨.multiply, .literal 10⟩ e).2
  let e := (push "b" ⟨.add, .register "nowhere"⟩ e).2
  let e := (push "c" ⟨.subtract, .register "b"⟩ e).2
  let e := (push "c" ⟨.add, .register "a"⟩ e).2
  e.reset.setValue 0 7

theorem size_shared : shared.store.size = 3 := by decide +kernel

theorem acyclic_shared : shared.store.Acyclic 2 := by
  have down : ∀ r < 3, ∀ t < 3, shared.store.Leads r t → t < r := by decide +kernel
  apply Store.acyclic_of_descends
  intro r t leads
  obtain ⟨i, waits, name, _, found⟩ := id leads
  exact down r (size_shared ▸ Store.lt_size_of_mem waits) t
    (size_shared ▸ Store.lt_size_of_find? found) leads

theorem denote_shared (r : Nat) (reached : shared.store.Reaches 2 r) :
    shared.store.denote r (acyclic_shared.of_reaches reached).grounded =
      if r = 0 then 9 else if r = 1 then 90 else -81 := by
  have all : ∀ r < 3, shared.store.Settled
      (fun r => if r = 0 then 9 else if r = 1 then 90 else -81) r := by decide +kernel
  apply Store.denote_eq_of_settled
  intro t further
  rcases Store.eq_or_lt_size_of_reaches (reached.trans further) with rfl | inside
  · exact all 2 (by decide)
  · exact all t (size_shared ▸ inside)

theorem evaluate_shared :
    shared.store.Acyclic 2 ∧ (shared.evaluate 2).1 = -81 ∧
    (shared.evaluate 2).2.store.value 0 = 9 ∧ (shared.evaluate 2).2.store.value 1 = 90 := by
  obtain ⟨returns, holds⟩ := evaluate_denotes 2 shared acyclic_shared
  have a : shared.store.Reaches 2 0 := .single (by decide +kernel)
  have b : shared.store.Reaches 2 1 := .single (by decide +kernel)
  refine ⟨acyclic_shared, returns.trans ?_, (holds 0 a).1.trans ?_, (holds 1 b).1.trans ?_⟩
  · exact denote_shared 2 .refl
  · exact denote_shared 0 a
  · exact denote_shared 1 b

end Engine

end RegisterCalculator
