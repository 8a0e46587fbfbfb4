import RegisterCalculator.Proofs.History
import RegisterCalculator.Proofs.Noninterference
import RegisterCalculator.Proofs.Omission

namespace RegisterCalculator

theorem Register.eq_of_map_eq {α : Type} {x y : Option (Register α)}
    (text : y.map (fun r => (r.name, r.definition)) = x.map fun r => (r.name, r.definition))
    (work : y.map work = x.map work) : y = x := by
  cases x with
  | none => exact Option.map_eq_none_iff.mp work
  | some r =>
    obtain ⟨r', rfl, same⟩ := Option.map_eq_some_iff.mp work
    obtain ⟨name, definition, pending, value⟩ := r
    obtain ⟨name', definition', pending', value'⟩ := r'
    simp only [Option.map_some, Option.some.injEq, Prod.mk.injEq, Register.work] at text same
    simp [text, same]

/-- One more instruction for the register with a name, which begins to exist if it must. -/
def Register.extend {α : Type} [Accumulator α] (name : String) (r : Option (Register α))
    (i : Instruction) : Option (Register α) := some ((r.getD (.new name)).append i)

namespace Command

/-- A line that neither prints nor quits. -/
def Quiet (line : String) : Prop :=
  parse line ≠ .ok .quit ∧ ∀ register, parse line ≠ .ok (.print register)

/-- What lines define for the register with a name, in order. -/
def definitionsOf (name : String) (lines : List String) : List Instruction :=
  ((lines.filterMap definition?).filter (·.1 = name)).map Prod.snd

end Command

namespace Store

variable {α : Type} {s t : Store α}

theorem register?_eq_some_iff {name : String} {r : Register α} :
    s.register? name = some r ↔ r ∈ s.registers ∧ r.name = name := by
  rw [register?, Option.bind_eq_some_iff, Array.mem_iff_getElem?]
  constructor
  · rintro ⟨id, found, here⟩
    rw [find?_eq_some_iff, here, Option.map_some, Option.some.injEq] at found
    exact ⟨⟨id, here⟩, found⟩
  · rintro ⟨⟨id, here⟩, rfl⟩
    exact ⟨id, by rw [find?_eq_some_iff, here, Option.map_some], here⟩

theorem isSome_register? (s : Store α) (name : String) :
    (s.register? name).isSome = (s.find? name).isSome := by
  cases found : s.find? name with
  | none => simp [register?, found]
  | some id =>
    have here : id < s.registers.size := lt_size_of_find? found
    simp [register?, found, here]

theorem SameText.map_register? (same : s.SameText t) (name : String) :
    (t.register? name).map (fun r => (r.name, r.definition)) =
      (s.register? name).map fun r => (r.name, r.definition) := by
  have place : ∀ s : Store α, (s.register? name).map (fun r => (r.name, r.definition)) =
      (s.find? name).bind fun id => s.text[id]? := by
    intro s
    cases found : s.find? name <;> simp [register?, found, getElem?_text]
  rw [place, place, same.text_eq, find?_of_text same.text_eq]

/-- The same registers under the same names, though perhaps in other places. -/
def Rearranged (s t : Store α) : Prop := ∀ name, t.register? name = s.register? name

namespace Rearranged

theorem isSome_find? (h : s.Rearranged t) (name : String) :
    (t.find? name).isSome = (s.find? name).isSome := by
  rw [← isSome_register?, ← isSome_register?, h]

theorem perm (h : s.Rearranged t) : t.registers.toList.Perm s.registers.toList := by
  have distinct : ∀ s : Store α, s.registers.toList.Nodup := fun s => (nodup_names s).of_map
  rw [List.perm_ext_iff_of_nodup (distinct t) (distinct s)]
  intro r
  have under : ∀ s : Store α, r ∈ s.registers.toList ↔ s.register? r.name = some r := by
    intro s
    rw [register?_eq_some_iff, Array.mem_toList_iff, and_iff_left rfl]
  rw [under, under, h]

theorem resetAll (h : s.Rearranged t) : s.resetAll.Rearranged t.resetAll := by
  intro name
  rw [register?_resetAll, register?_resetAll, h]

theorem agree_resetAll (h : s.Rearranged t) :
    Agree {a | (s.find? a).isSome} s.resetAll t.resetAll := by
  apply agree_resetAll_of_closed
  · intro a known
    obtain ⟨r, here⟩ := Option.isSome_iff_exists.mp ((isSome_register? s a).trans known)
    exact ⟨r, r, here, (h a).trans here, rfl⟩
  · intro a _ b _
    cases found : s.find? b with
    | some id => exact .inl (Option.isSome_iff_exists.mpr ⟨id, found⟩)
    | none =>
      have missing := h.isSome_find? b
      rw [found] at missing
      exact .inr ⟨rfl, by simpa using missing⟩

end Rearranged

variable [Accumulator α]

theorem register?_ensure (s : Store α) (name other : String) :
    (s.ensure name).2.register? other =
      if name = other then some ((s.register? name).getD (.new name)) else s.register? other := by
  unfold ensure
  split
  · next id found =>
    have here : id < s.registers.size := lt_size_of_find? found
    by_cases same : name = other
    · subst same
      simp [register?, found, here]
    · simp [same]
  · next free =>
    apply Option.ext
    intro r
    rw [register?_eq_some_iff]
    by_cases same : name = other
    · subst same
      have absent : s.register? name = none := by simp [register?, free]
      have others : ∀ r ∈ s.registers, r.name ≠ name := by
        intro r mem named
        rw [register?_eq_some_iff.mpr ⟨mem, named⟩] at absent
        cases absent
      simp only [push, Array.mem_push, if_true, absent, Option.getD_none, Option.some.injEq]
      constructor
      · rintro ⟨mem | rfl, named⟩
        · exact absurd named (others r mem)
        · rfl
      · rintro rfl
        exact ⟨.inr rfl, rfl⟩
    · simp only [push, Array.mem_push, if_neg same, register?_eq_some_iff]
      constructor
      · rintro ⟨mem | rfl, named⟩
        · exact ⟨mem, named⟩
        · exact absurd named same
      · rintro ⟨mem, named⟩
        exact ⟨.inl mem, named⟩

end Store

namespace Engine

variable {α : Type} [Accumulator α] {e f : Engine α}

theorem register?_push (register : String) (i : Instruction) (e : Engine α) (name : String) :
    (e.push register i).2.store.register? name =
      if register = name then
        some (((e.store.register? register).getD (.new register)).append i)
      else e.store.register? name := by
  have place := Store.find?_ensure e.store register
  have appended := Store.register?_modify place (·.append i) (fun _ => rfl) name
  refine Eq.trans appended ?_
  rw [Store.register?_ensure]
  split
  · rfl
  · rfl

structure Rearranged (e f : Engine α) : Prop where
  store : e.store.Rearranged f.store
  diagnostics : f.diagnostics = e.diagnostics

namespace Rearranged

theorem push (h : Rearranged e f) (register : String) (i : Instruction) :
    Rearranged (e.push register i).2 (f.push register i).2 := by
  refine ⟨?_, h.diagnostics⟩
  intro name
  rw [register?_push, register?_push, h.store, h.store]

omit [Accumulator α] in
theorem drain (h : Rearranged e f) : Rearranged e.drain.2 f.drain.2 := ⟨h.store, rfl⟩

omit [Accumulator α] in
theorem refl (e : Engine α) : Rearranged e e := ⟨fun _ => rfl, rfl⟩

/-- A print goes by the names, so that it comes to the same end wherever the registers stand. -/
theorem print (h : Rearranged e f) (name : String) :
    (f.print name).1 = (e.print name).1 ∧ Rearranged (e.print name).2 (f.print name).2 := by
  have known := h.store.isSome_find? name
  cases found : e.store.find? name with
  | none =>
    have absent : f.store.find? name = none := by simpa [found] using known
    rw [print_of_find?_eq_none found, print_of_find?_eq_none absent]
    exact ⟨rfl, h⟩
  | some id =>
    obtain ⟨id', found'⟩ : ∃ id', f.store.find? name = some id' :=
      Option.isSome_iff_exists.mp (by simpa [found] using known)
    -- All names that lead anywhere are compared, so what is outside of them is in neither store.
    let names : Set String := {a | (e.store.find? a).isSome}
    have alike : Agree names e.diagnostics.toList e.diagnostics.toList e.reset f.reset :=
      ⟨h.store.agree_resetAll, [], by simp [reset], by simp [reset, h.diagnostics]⟩
    have twins : e.reset.store.Twins names f.reset.store id id' :=
      ⟨name, Option.isSome_iff_exists.mpr ⟨id, found⟩, found, found'⟩
    have visit := evaluates_evaluate id e.reset
    obtain ⟨events, f', visit', after⟩ := visit.agree alike twins
    rw [print_of_find? found, print_of_find? found', evaluate_of_evaluates visit']
    refine ⟨rfl, ?_, ?_⟩
    · intro a
      have text : (f'.store.register? a).map (fun r => (r.name, r.definition)) =
          ((e.reset.evaluate id).2.store.register? a).map fun r => (r.name, r.definition) := by
        have began : f.reset.store.register? a = e.reset.store.register? a := h.store.resetAll a
        rw [visit'.advances.map_register? a, visit.advances.map_register? a, began]
      have work : (f'.store.register? a).map Register.work =
          ((e.reset.evaluate id).2.store.register? a).map Register.work := by
        by_cases mem : a ∈ names
        · exact (Store.sameAt_iff.mp (after.store.same a mem)).2
        · have still : (e.reset.evaluate id).2.store.find? a = none := by
            rw [visit.advances.find?_eq]
            exact Option.not_isSome_iff_eq_none.mp mem
          have absent : (e.reset.evaluate id).2.store.register? a = none := by
            rw [Store.register?, still, Option.bind_none]
          rw [absent] at text
          rw [absent, Option.map_eq_none_iff.mp text]
      exact Register.eq_of_map_eq text work
    · obtain ⟨reported, now, now'⟩ := after.recorded
      exact Array.toList_inj.mp (now'.trans now.symm)

theorem perform (h : Rearranged e f) (c : Command) :
    (f.perform c).1 = (e.perform c).1 ∧ Rearranged (e.perform c).2 (f.perform c).2 := by
  cases c with
  | define register i => exact ⟨rfl, h.push register i⟩
  | print register =>
    obtain ⟨answer, after⟩ := h.print register
    rw [perform_print, perform_print, answer]
    exact ⟨rfl, after⟩
  | quit => exact ⟨rfl, h⟩
  | blank => exact ⟨rfl, h⟩

theorem execute (h : Rearranged e f) (line : String) :
    (f.execute line).1 = (e.execute line).1 ∧ Rearranged (e.execute line).2 (f.execute line).2 := by
  unfold Engine.execute
  cases Command.parse line with
  | error cause => exact ⟨rfl, h⟩
  | ok c => exact h.perform c

end Rearranged

theorem answer_of_quiet {line : String} (quiet : Command.Quiet line) (e : Engine α) :
    (e.execute line).1 ≠ .ok .quit ∧ ∀ value, (e.execute line).1 ≠ .ok (.printed value) := by
  cases e.execution line with
  | quit parsed _ => exact absurd parsed quiet.1
  | printed register _ parsed _ _ => exact absurd parsed (quiet.2 register)
  | malformed _ _ outcome => simp [outcome]
  | missing _ _ _ outcome => simp [outcome]
  | defined _ _ _ outcome => simp [outcome]
  | blank _ outcome => simp [outcome]

/-- A line that neither prints nor quits does what it defines, if it defines anything. -/
theorem execute_of_quiet {line : String} (quiet : Command.Quiet line) (e : Engine α) :
    (e.execute line).2 =
      (Command.definition? line).elim e fun d => (e.push d.1 d.2).2 := by
  cases defines : Command.definition? line with
  | some d => rw [execute_of_definition defines, Option.elim_some]
  | none =>
    apply execute_idle
    cases e.execution line with
    | malformed _ _ outcome => rw [outcome]; exact .refused _
    | missing _ _ _ outcome => rw [outcome]; exact .refused _
    | blank _ outcome => rw [outcome]; exact .skipped
    | quit _ outcome => rw [outcome]; exact .quit
    | printed register _ parsed _ _ => exact absurd parsed (quiet.2 register)
    | defined register i parsed _ => simp [Command.definition?, parsed] at defines

theorem diagnostics_of_quiet {lines : List String} (quiet : ∀ line ∈ lines, Command.Quiet line)
    (e : Engine α) : (e.follow lines).diagnostics = e.diagnostics := by
  induction lines generalizing e with
  | nil => rfl
  | cons line lines ih =>
    obtain ⟨here, later⟩ := List.forall_mem_cons.mp quiet
    rw [follow_cons, ih later, execute_of_quiet here]
    cases Command.definition? line <;> rfl

/-- Between prints, a register sees nothing but its own definitions. -/
theorem register?_follow {lines : List String} (quiet : ∀ line ∈ lines, Command.Quiet line)
    (e : Engine α) (name : String) :
    (e.follow lines).store.register? name =
      (Command.definitionsOf name lines).foldl (Register.extend name) (e.store.register? name) := by
  induction lines generalizing e with
  | nil => rfl
  | cons line lines ih =>
    obtain ⟨here, later⟩ := List.forall_mem_cons.mp quiet
    rw [follow_cons, ih later, execute_of_quiet here, Command.definitionsOf, Command.definitionsOf]
    cases defines : Command.definition? line with
    | none => simp [defines]
    | some d =>
      simp only [Option.elim_some, register?_push, List.filterMap_cons, defines]
      by_cases same : d.1 = name
      · subst same
        simp [Register.extend]
      · simp [same]

theorem Rearranged.follow (h : Rearranged e f) {lines lines' : List String}
    (quiet : ∀ line ∈ lines, Command.Quiet line) (quiet' : ∀ line ∈ lines', Command.Quiet line)
    (same : ∀ name, Command.definitionsOf name lines' = Command.definitionsOf name lines) :
    Rearranged (e.follow lines) (f.follow lines') := by
  constructor
  · intro name
    rw [register?_follow quiet, register?_follow quiet', same, h.store]
  · rw [diagnostics_of_quiet quiet, diagnostics_of_quiet quiet', h.diagnostics]

end Engine

end RegisterCalculator
