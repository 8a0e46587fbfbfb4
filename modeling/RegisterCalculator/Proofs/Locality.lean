import Mathlib.Data.Set.Defs
import RegisterCalculator.Proofs.Reach

namespace RegisterCalculator

/-- What an evaluation reads and changes in a register. -/
def Register.work {α : Type} (r : Register α) : List Instruction × α := (r.pending, r.value)

def Operand.name? : Operand → Option String
  | .literal _ => none
  | .register name => some name

/-- What decides how a register comes out of a pass. -/
def Register.source {α : Type} (r : Register α) : Array Instruction × α := (r.definition, r.value)

namespace Store

variable {α β : Type}

def register? (s : Store α) (name : String) : Option (Register α) :=
  (s.find? name).bind fun id => s.registers[id]?

/-- The names in the definition of a register. They need not belong to registers. -/
def mentions (s : Store α) (name : String) : List String :=
  (s.register? name).elim [] fun r => r.definition.toList.filterMap (·.operand.name?)

/-- The registers that definitions lead to, over any number of references. -/
def Depends (s : Store α) : String → String → Prop :=
  Relation.ReflTransGen fun a b => b ∈ s.mentions a ∧ (s.find? b).isSome

def SameAt (view : Register α → β) (s t : Store α) (name : String) : Prop :=
  ∃ r r', s.register? name = some r ∧ t.register? name = some r' ∧ view r' = view r

theorem mem_of_depends {s : Store α} {names : List String} {a b : String} (depends : s.Depends a b)
    (start : a ∈ names)
    (closed : ∀ a ∈ names, ∀ b ∈ s.mentions a, (s.find? b).isSome → b ∈ names) : b ∈ names := by
  induction depends with
  | refl => exact start
  | tail _ next ih => exact closed _ ih _ next.1 next.2

theorem register?_of_find? {s : Store α} {name : String} {id : Nat}
    (found : s.find? name = some id) : s.register? name = s.registers[id]? := by
  simp [register?, found]

theorem find?_of_register? {s : Store α} {name : String} {r : Register α}
    (found : s.register? name = some r) : ∃ id, s.find? name = some id := by
  cases place : s.find? name with
  | none => simp [register?, place] at found
  | some id => exact ⟨id, rfl⟩

theorem register?_modify {s : Store α} {a : String} {id : Nat} (found : s.find? a = some id)
    (f : Register α → Register α) (keeps : ∀ r, (f r).name = r.name) (b : String) :
    (s.modify id f keeps).register? b =
      if a = b then (s.register? b).map f else s.register? b := by
  cases place : s.find? b with
  | none =>
    have other : a ≠ b := fun same => by simp [same, place] at found
    simp [register?, place, other]
  | some j =>
    have same : id = j ↔ a = b := by
      constructor
      · rintro rfl
        exact find?_injective found place
      · rintro rfl
        exact Option.some.inj (found.symm.trans place)
    rw [register?_of_find? (s := s.modify id f keeps) place, register?_of_find? place,
      getElem?_modify]
    simp only [same]

theorem register?_resetAll (s : Store α) (name : String) :
    s.resetAll.register? name = (s.register? name).map Register.reset := by
  simp only [register?, find?_resetAll]
  cases s.find? name with
  | none => rfl
  | some id => simp [resetAll]

theorem sameAt_iff {view : Register α → β} {s t : Store α} {name : String} :
    SameAt view s t name ↔
      (s.register? name).isSome ∧ (t.register? name).map view = (s.register? name).map view := by
  constructor
  · rintro ⟨r, r', hr, hr', same⟩
    simp [hr, hr', same]
  · rintro ⟨present, same⟩
    obtain ⟨r, hr⟩ := Option.isSome_iff_exists.mp present
    obtain ⟨r', hr', same⟩ := Option.map_eq_some_iff.mp (same.trans (by rw [hr]; rfl))
    exact ⟨r, r', hr, hr', same⟩

instance [DecidableEq β] (view : Register α → β) (s t : Store α) (name : String) :
    Decidable (SameAt view s t name) :=
  decidable_of_iff' _ sameAt_iff

/-- Two stores have the same registers under some names, as far as an evaluation can tell, and what
is pending there names none but these and registers that neither store has. -/
structure Agree (names : Set String) (s t : Store α) : Prop where
  same : ∀ a ∈ names, SameAt Register.work s t a
  closed : ∀ a ∈ names, ∀ r, s.register? a = some r → ∀ i ∈ r.pending, ∀ b,
    i.operand = .register b → b ∈ names ∨ s.find? b = none ∧ t.find? b = none

/-- The places where two stores have the registers with one of the names. -/
def Twins (names : Set String) (s t : Store α) (id id' : Nat) : Prop :=
  ∃ a ∈ names, s.find? a = some id ∧ t.find? a = some id'

section Agree

variable {names : Set String} {s t s' t' : Store α} {id id' : Nat}

theorem Twins.of_advances (twins : Twins names s t id id') (h : s.Advances s')
    (h' : t.Advances t') : Twins names s' t' id id' := by
  obtain ⟨a, mem, found, found'⟩ := twins
  exact ⟨a, mem, (h.find?_eq a).trans found, (h'.find?_eq a).trans found'⟩

theorem Twins.name_eq (twins : Twins names s t id id') : t.name id' = s.name id := by
  obtain ⟨a, _, found, found'⟩ := twins
  rw [find?_eq_some_iff, Option.map_eq_some_iff] at found found'
  obtain ⟨r, hr, rfl⟩ := found
  obtain ⟨r', hr', same⟩ := found'
  simp [name, hr, hr', same]

namespace Agree

variable (h : Agree names s t) (twins : Twins names s t id id')

include h twins

theorem getElem? : ∃ r r', s.registers[id]? = some r ∧ t.registers[id']? = some r' ∧
    r'.pending = r.pending ∧ r'.value = r.value := by
  obtain ⟨a, mem, found, found'⟩ := twins
  obtain ⟨r, r', hr, hr', same⟩ := h.same a mem
  rw [register?_of_find? found] at hr
  rw [register?_of_find? found'] at hr'
  exact ⟨r, r', hr, hr', congrArg Prod.fst same, congrArg Prod.snd same⟩

theorem pending_eq : t.pending id' = s.pending id := by
  obtain ⟨r, r', hr, hr', same, _⟩ := h.getElem? twins
  simpa [pending, hr, hr'] using same

theorem value_eq [Accumulator α] : t.value id' = s.value id := by
  obtain ⟨r, r', hr, hr', _, same⟩ := h.getElem? twins
  simpa [value, hr, hr'] using same

/-- What a pending instruction names is missing in both stores or has its places in both. -/
theorem find?_operand {i : Instruction} (waits : i ∈ s.pending id) {b : String}
    (operand : i.operand = .register b) :
    s.find? b = none ∧ t.find? b = none ∨
    ∃ j j', s.find? b = some j ∧ t.find? b = some j' ∧ Twins names s t j j' := by
  obtain ⟨a, mem, found, _⟩ := twins
  obtain ⟨r, _, hr, _, _⟩ := h.same a mem
  have pending : s.pending id = r.pending := by
    rw [register?_of_find? found] at hr
    simp [Store.pending, hr]
  rcases h.closed a mem r hr i (pending ▸ waits) b operand with inside | missing
  · obtain ⟨_, _, hb, hb', _⟩ := h.same b inside
    obtain ⟨j, place⟩ := find?_of_register? hb
    obtain ⟨j', place'⟩ := find?_of_register? hb'
    exact .inr ⟨j, j', place, place', b, inside, place, place'⟩
  · exact .inl missing

theorem modify {f : Register α → Register α} (keeps : ∀ r, (f r).name = r.name)
    (alike : ∀ r r', Register.work r' = r.work → (f r').work = (f r).work)
    (fewer : (s.modify id f keeps).pending id ⊆ s.pending id) :
    Agree names (s.modify id f keeps) (t.modify id' f keeps) := by
  obtain ⟨a, _, found, found'⟩ := twins
  constructor
  · intro b mem
    obtain ⟨r, r', hr, hr', same⟩ := h.same b mem
    rw [SameAt, register?_modify found, register?_modify found', hr, hr']
    by_cases here : a = b
    · exact ⟨f r, f r', by simp [here], by simp [here], alike r r' same⟩
    · exact ⟨r, r', by simp [here], by simp [here], same⟩
  · intro b mem r hr i waits
    rw [register?_modify found] at hr
    by_cases here : a = b
    · subst here
      rw [if_pos rfl, Option.map_eq_some_iff] at hr
      obtain ⟨r, hr, rfl⟩ := hr
      -- the one register that changed has no more pending than before
      have place := hr
      rw [register?_of_find? found] at place
      simp only [pending, getElem?_modify, if_pos, place, Option.map_some,
        Option.elim_some] at fewer
      exact h.closed a mem r hr i (fewer waits)
    · rw [if_neg here] at hr
      exact h.closed b mem r hr i waits

theorem setPending {i : Instruction} {rest : List Instruction} (waits : s.pending id = i :: rest) :
    Agree names (s.setPending id rest) (t.setPending id' rest) := by
  apply h.modify twins
  · intro r r' same
    simpa [Register.work] using congrArg Prod.snd same
  · change (s.setPending id rest).pending id ⊆ _
    rw [pending_setPending _ _ _ _ (lt_size_of_pending waits), if_pos rfl, waits]
    exact List.subset_cons_self ..

theorem setValue (value : α) : Agree names (s.setValue id value) (t.setValue id' value) := by
  apply h.modify twins
  · intro r r' same
    simpa [Register.work] using congrArg Prod.fst same
  · change (s.setValue id value).pending id ⊆ _
    rw [pending_setValue]
    exact List.Subset.refl _

end Agree

end Agree

end Store

namespace Engine

variable {α : Type} {names : Set String} {old old' : List Diagnostic} {e f : Engine α}
  {id id' : Nat}

structure Agree (names : Set String) (old old' : List Diagnostic) (e f : Engine α) : Prop where
  store : e.store.Agree names f.store
  recorded : ∃ reported, e.diagnostics.toList = old ++ reported ∧
    f.diagnostics.toList = old' ++ reported

namespace Agree

theorem setPending (h : Agree names old old' e f) (twins : e.store.Twins names f.store id id')
    {i : Instruction} {rest : List Instruction} (waits : e.store.pending id = i :: rest) :
    Agree names old old' (e.setPending id rest) (f.setPending id' rest) :=
  ⟨h.store.setPending twins waits, h.recorded⟩

theorem setValue (h : Agree names old old' e f) (twins : e.store.Twins names f.store id id')
    (value : α) : Agree names old old' (e.setValue id value) (f.setValue id' value) :=
  ⟨h.store.setValue twins value, h.recorded⟩

theorem report (h : Agree names old old' e f) (twins : e.store.Twins names f.store id id')
    (name : String) : Agree names old old' (e.report id name) (f.report id' name) := by
  obtain ⟨reported, now, now'⟩ := h.recorded
  refine ⟨h.store, reported ++ [⟨e.store.name id, .registerNotFound name⟩], ?_, ?_⟩
  · simp [now]
  · simp [now', twins.name_eq]

end Agree

end Engine

variable {α : Type} [Accumulator α]

/-- Engines that agree on a register and on all that it leads to go through its visit alike. The
two may keep the registers in different places: what they share is the names. -/
theorem Evaluates.agree {names : Set String} {old old' : List Diagnostic} {id id' : Nat}
    {e e' f : Engine α} {events : List (Event α)} {value : α} (h : Evaluates id e events value e')
    (alike : Engine.Agree names old old' e f) (twins : e.store.Twins names f.store id id') :
    ∃ events' f', Evaluates id' f events' value f' ∧ Engine.Agree names old old' e' f' := by
  induction h generalizing id' f with
  | @drained id e empty =>
    have empty' := (alike.store.pending_eq twins).trans empty
    rw [← alike.store.value_eq twins]
    exact ⟨_, f, .drained empty', alike⟩
  | @literal id e op x rest events value e' waits _ ih =>
    have waits' := (alike.store.pending_eq twins).trans waits
    obtain ⟨events', f', more, after⟩ := ih ((alike.setPending twins waits).setValue twins _) twins
    rw [← alike.store.value_eq twins] at more
    exact ⟨_, f', .literal waits' more, after⟩
  | @missing id e op name rest events value e' waits absent _ ih =>
    have waits' := (alike.store.pending_eq twins).trans waits
    obtain ⟨events', f', more, after⟩ := ih ((alike.setPending twins waits).report twins name) twins
    rcases alike.store.find?_operand twins (waits ▸ List.mem_cons_self ..) rfl with
      ⟨_, absent'⟩ | ⟨_, _, place, _⟩
    · exact ⟨_, f', .missing waits' absent' more, after⟩
    · exact absurd (absent.symm.trans place) (by simp)
  | @entered id e op name rest operand inner x between events value e' waits found enters _ ihEnters
      ih =>
    have waits' := (alike.store.pending_eq twins).trans waits
    rcases alike.store.find?_operand twins (waits ▸ List.mem_cons_self ..) rfl with
      ⟨absent, _⟩ | ⟨_, operand', place, found', operands⟩
    · exact absurd (absent.symm.trans found) (by simp)
    · cases found.symm.trans place
      -- the visit of the operand leaves the register that waits in its place on both sides
      obtain ⟨inner', between', enters', inside⟩ := ihEnters (alike.setPending twins waits) operands
      have still := twins.of_advances ((Store.Advances.setPending waits).trans enters.advances)
        ((Store.Advances.setPending waits').trans enters'.advances)
      obtain ⟨events', f', more, after⟩ := ih (inside.setValue still _) still
      rw [← alike.store.value_eq twins] at more
      exact ⟨_, f', .entered waits' found' enters' more, after⟩

theorem Store.agree_resetAll_of_closed {α : Type} {names : Set String} {s t : Store α}
    (same : ∀ a ∈ names, SameAt Register.source s t a)
    (closed : ∀ a ∈ names, ∀ b ∈ s.mentions a,
      b ∈ names ∨ s.find? b = none ∧ t.find? b = none) :
    Agree names s.resetAll t.resetAll := by
  constructor
  · intro a mem
    obtain ⟨r, r', hr, hr', same⟩ := same a mem
    refine ⟨r.reset, r'.reset, ?_, ?_, ?_⟩
    · rw [register?_resetAll, hr, Option.map_some]
    · rw [register?_resetAll, hr', Option.map_some]
    · obtain ⟨definition, value⟩ := Prod.mk.inj same
      simp [Register.work, Register.reset, definition, value]
  · intro a mem r hr i waits b operand
    rw [register?_resetAll, Option.map_eq_some_iff] at hr
    obtain ⟨r, hr, rfl⟩ := hr
    apply closed a mem b
    simp only [mentions, hr, Option.elim_some, List.mem_filterMap]
    exact ⟨i, waits, by rw [operand]; rfl⟩

theorem Store.agree_resetAll {α : Type} {s t : Store α} {n : String}
    (same : ∀ a, s.Depends n a → SameAt Register.source s t a)
    (known : ∀ a b, s.Depends n a → b ∈ s.mentions a → (t.find? b).isSome = (s.find? b).isSome) :
    Agree {a | s.Depends n a} s.resetAll t.resetAll := by
  apply agree_resetAll_of_closed same
  intro a depends b mentioned
  have found := known a b depends mentioned
  cases place : s.find? b with
  | none => exact .inr ⟨rfl, by simpa [place] using found⟩
  | some id => exact .inl (depends.tail ⟨mentioned, by simp [place]⟩)

namespace Engine

/-- A print is decided by the definitions and values of the registers that it leads to, and by which
of the names in those definitions belong to a register. Where the registers stand, what else there
is and what was left pending makes no difference. -/
theorem print_agrees {e f : Engine α} {n : String}
    (same : ∀ a, e.store.Depends n a → Store.SameAt Register.source e.store f.store a)
    (known : ∀ a b, e.store.Depends n a → b ∈ e.store.mentions a →
      (f.store.find? b).isSome = (e.store.find? b).isSome) :
    ∃ value reported,
      (e.print n).1 = .ok value ∧ (f.print n).1 = .ok value ∧
      (e.print n).2.diagnostics.toList = e.diagnostics.toList ++ reported ∧
      (f.print n).2.diagnostics.toList = f.diagnostics.toList ++ reported ∧
      ∀ a, e.store.Depends n a →
        Store.SameAt Register.work (e.print n).2.store (f.print n).2.store a := by
  have alike : Agree {a | e.store.Depends n a} e.diagnostics.toList f.diagnostics.toList
      e.reset f.reset :=
    ⟨Store.agree_resetAll same known, [], by simp [reset], by simp [reset]⟩
  obtain ⟨r, r', hr, hr', _⟩ := same n .refl
  obtain ⟨id, found⟩ := Store.find?_of_register? hr
  obtain ⟨id', found'⟩ := Store.find?_of_register? hr'
  obtain ⟨events', f', visit', after⟩ :=
    (evaluates_evaluate id e.reset).agree alike ⟨n, .refl, found, found'⟩
  obtain ⟨reported, recorded, recorded'⟩ := after.recorded
  rw [print_of_find? found, print_of_find? found', evaluate_of_evaluates visit']
  exact ⟨_, reported, rfl, rfl, recorded, recorded', after.store.same⟩

def compact : Engine Int64 :=
  let e := (push "a" ⟨.add, .register "b"⟩ empty).2
  let e := (e.push "a" ⟨.add, .literal 3⟩).2
  let e := (e.push "b" ⟨.multiply, .register "a"⟩).2
  let e := (e.push "b" ⟨.subtract, .register "nowhere"⟩).2
  e.setValue 1 5

/-- The same `a` and `b` in other places among other registers, in the middle of a pass. -/
def scattered : Engine Int64 :=
  let e := (push "c" ⟨.add, .register "a"⟩ empty).2
  let e := (e.push "b" ⟨.multiply, .register "a"⟩).2
  let e := (e.push "d" ⟨.add, .register "missing"⟩).2
  let e := (e.push "b" ⟨.subtract, .register "nowhere"⟩).2
  let e := (e.push "a" ⟨.add, .register "b"⟩).2
  let e := (e.push "a" ⟨.add, .literal 3⟩).2
  ((e.reset.evaluate 2).2.setValue 0 7).setValue 1 5

theorem print_agrees_scattered :
    (∀ a, compact.store.Depends "a" a →
      Store.SameAt Register.source compact.store scattered.store a) ∧
    (∀ a b, compact.store.Depends "a" a → b ∈ compact.store.mentions a →
      (scattered.store.find? b).isSome = (compact.store.find? b).isSome) ∧
    (scattered.print "a").1 = (compact.print "a").1 ∧
    Store.SameAt Register.work (compact.print "a").2.store (scattered.print "a").2.store "a" := by
  have inside : ∀ a, compact.store.Depends "a" a → a ∈ ["a", "b"] := by
    intro a depends
    exact Store.mem_of_depends depends (by decide) (by decide +kernel)
  have same : ∀ a ∈ ["a", "b"], Store.SameAt Register.source compact.store scattered.store a := by
    decide +kernel
  have known : ∀ a ∈ ["a", "b"], ∀ b ∈ compact.store.mentions a,
      (scattered.store.find? b).isSome = (compact.store.find? b).isSome := by
    decide +kernel
  have same' := fun a depends => same a (inside a depends)
  have known' := fun a b depends => known a (inside a depends) b
  obtain ⟨_, _, gives, gives', _, _, work⟩ := print_agrees same' known'
  exact ⟨same', known', gives'.trans gives.symm, work "a" .refl⟩

end Engine

end RegisterCalculator
