import RegisterCalculator.Proofs.Image
import RegisterCalculator.Proofs.Locality
import RegisterCalculator.Proofs.Missing
import RegisterCalculator.Proofs.Passes

namespace RegisterCalculator

namespace Store

variable {α β : Type}

/-- The names of the registers with their definitions, in the order of creation. -/
def text (s : Store α) : Array (String × Array Instruction) :=
  s.registers.map fun r => (r.name, r.definition)

theorem getElem?_text (s : Store α) (id : Nat) :
    s.text[id]? = s.registers[id]?.map fun r => (r.name, r.definition) := Array.getElem?_map

@[simp] theorem text_resetAll (s : Store α) : s.resetAll.text = s.text := by
  simp [text, resetAll, Register.reset, Function.comp_def]

@[simp] theorem text_map (f : α → β) (s : Store α) : (s.map f).text = s.text := by
  simp [text, map, Register.map, Function.comp_def]

theorem text_append (s : Store α) (id : Nat) (i : Instruction) :
    (s.append id i).text =
      s.text.modify id fun (name, definition) => (name, definition.push i) := by
  apply Array.ext_getElem?
  intro j
  rw [Array.getElem?_modify, getElem?_text, getElem?_text, getElem?_append]
  split
  · simp [Function.comp_def, Register.append]
  · rfl

theorem ensure_eq [Accumulator α] (s : Store α) (name : String) :
    (s.ensure name).1 = (s.find? name).getD s.size ∧
    (s.ensure name).2.text =
      (s.find? name).elim (s.text.push (name, #[])) fun _ => s.text := by
  unfold ensure
  split
  · next id found => simp [found]
  · next free => simp [free, text, push, Register.new]

theorem SameText.text_eq {s t : Store α} (h : s.SameText t) : t.text = s.text := by
  have pairs : ∀ s : Store α, s.text =
      (s.registers.map Register.name).zip (s.registers.map Register.definition) := by
    intro s
    simp [text, Array.zip_map']
  rw [pairs, pairs, h.names, h.definitions]

section Same

variable {s t : Store α} (same : t.text = s.text)

include same

theorem size_of_text : t.size = s.size := by
  simpa [text, size] using congrArg Array.size same

theorem find?_of_text (name : String) : t.find? name = s.find? name := by
  have place : ∀ s : Store α, ∀ id,
      s.find? name = some id ↔ s.text[id]?.map Prod.fst = some name := by
    intro s id
    rw [find?_eq_some_iff, getElem?_text, Option.map_map]
    rfl
  apply Option.ext
  intro id
  rw [place, place, same]

theorem definition_of_text {id : Nat} {r r' : Register α} (hr : s.registers[id]? = some r)
    (hr' : t.registers[id]? = some r') : r'.definition = r.definition := by
  have pair := congrArg (·[id]?) same
  simp only [getElem?_text, hr, hr', Option.map_some, Option.some.injEq, Prod.mk.injEq] at pair
  exact pair.2

theorem agree_of_text [Accumulator α] (value : ∀ r, t.value r = s.value r) :
    Agree {a | (s.find? a).isSome} s.resetAll t.resetAll := by
  apply agree_resetAll_of_closed
  · intro a known
    obtain ⟨id, found⟩ := Option.isSome_iff_exists.mp known
    have found' : t.find? a = some id := (find?_of_text same a).trans found
    obtain ⟨r, hr, _⟩ := Option.map_eq_some_iff.mp ((find?_eq_some_iff ..).mp found)
    obtain ⟨r', hr', _⟩ := Option.map_eq_some_iff.mp ((find?_eq_some_iff ..).mp found')
    have definition := definition_of_text same hr hr'
    have value := value id
    simp only [Store.value, hr, hr', Option.elim_some] at value
    refine ⟨r, r', ?_, ?_, ?_⟩
    · rw [register?_of_find? found, hr]
    · rw [register?_of_find? found', hr']
    · simp only [Register.source, definition, value]
  · intro a _ b _
    cases found : s.find? b with
    | some id => exact .inl (Option.isSome_iff_exists.mpr ⟨id, found⟩)
    | none => exact .inr ⟨rfl, (find?_of_text same b).trans found⟩

theorem Agree.everywhere [Accumulator α] {names : Set String} (h : Agree names s t)
    (all : ∀ r < s.size, s.name r ∈ names) (r : Nat) :
    t.pending r = s.pending r ∧ t.value r = s.value r := by
  by_cases here : r < s.size
  · have found := find?_name here
    have twins : Twins names s t r r :=
      ⟨_, all r here, found, (find?_of_text same _).trans found⟩
    exact ⟨h.pending_eq twins, h.value_eq twins⟩
  · have beyond : s.registers[r]? = none := Array.getElem?_eq_none (Nat.le_of_not_lt here)
    have beyond' : t.registers[r]? = none := by
      rw [← size_of_text same] at here
      exact Array.getElem?_eq_none (Nat.le_of_not_lt here)
    simp [pending, value, beyond, beyond']

end Same

end Store

namespace Engine

variable {α : Type} [Accumulator α]

theorem text_push (register : String) (i : Instruction) {e f : Engine α}
    (same : f.store.text = e.store.text) :
    (f.push register i).2.store.text = (e.push register i).2.store.text := by
  simp only [push, Store.text_append, Store.ensure_eq, Store.find?_of_text same,
    Store.size_of_text same, same]

theorem perform_print (register : String) (e : Engine α) :
    e.perform (.print register) =
      (((e.print register).1.map .printed).mapError .fault, (e.print register).2) := by
  simp only [perform]
  cases (e.print register).1 <;> rfl

/-- Engines with the same text and the same values. What is pending and what has been recorded may
differ. -/
structure Alike (e f : Engine α) : Prop where
  text : f.store.text = e.store.text
  value : ∀ r, f.store.value r = e.store.value r

def ReportAlike (e f e' f' : Engine α) : Prop :=
  ∃ reported, e'.diagnostics.toList = e.diagnostics.toList ++ reported ∧
    f'.diagnostics.toList = f.diagnostics.toList ++ reported

omit [Accumulator α] in
theorem ReportAlike.refl (e f : Engine α) : ReportAlike e f e f := ⟨[], by simp, by simp⟩

namespace Alike

variable {e f : Engine α} (h : Alike e f)

include h

/-- A print runs the whole text on the values, so that it takes the same course in both engines and
leaves the same to be done. -/
theorem print (name : String) :
    (f.print name).1 = (e.print name).1 ∧ ReportAlike e f (e.print name).2 (f.print name).2 ∧
    Alike (e.print name).2 (f.print name).2 ∧
    ∀ value, (e.print name).1 = .ok value →
      ∀ r, (f.print name).2.store.pending r = (e.print name).2.store.pending r := by
  have same := Store.find?_of_text h.text name
  cases found : e.store.find? name with
  | none =>
    rw [print_of_find?_eq_none found, print_of_find?_eq_none (same.trans found)]
    exact ⟨rfl, .refl e f, h, by simp⟩
  | some id =>
    have found' := same.trans found
    let names : Set String := {a | (e.store.find? a).isSome}
    have alike : Agree names e.diagnostics.toList f.diagnostics.toList e.reset f.reset :=
      ⟨Store.agree_of_text h.text h.value, [], by simp [reset], by simp [reset]⟩
    have twins : e.reset.store.Twins names f.reset.store id id :=
      ⟨name, Option.isSome_iff_exists.mpr ⟨id, found⟩, found, found'⟩
    have visit := evaluates_evaluate id e.reset
    obtain ⟨events, f', visit', after⟩ := visit.agree alike twins
    rw [print_of_find? found, print_of_find? found', evaluate_of_evaluates visit']
    have text : f'.store.text = (e.reset.evaluate id).2.store.text := by
      rw [visit.advances.text_eq, visit'.advances.text_eq]
      simpa [reset] using h.text
    have all : ∀ r < (e.reset.evaluate id).2.store.size,
        (e.reset.evaluate id).2.store.name r ∈ names := by
      intro r here
      have place := Store.find?_name here
      rw [visit.advances.find?_eq] at place
      exact Option.isSome_iff_exists.mpr ⟨r, place⟩
    have now := after.store.everywhere text all
    exact ⟨rfl, after.recorded, ⟨text, fun r => (now r).2⟩, fun _ _ r => (now r).1⟩

theorem perform (c : Command) :
    (f.perform c).1 = (e.perform c).1 ∧ ReportAlike e f (e.perform c).2 (f.perform c).2 ∧
    Alike (e.perform c).2 (f.perform c).2 ∧
    ∀ value, (e.perform c).1 = .ok (.printed value) →
      ∀ r, (f.perform c).2.store.pending r = (e.perform c).2.store.pending r := by
  cases c with
  | define register i =>
    have after : Alike (e.push register i).2 (f.push register i).2 :=
      ⟨text_push register i h.text, by simpa using h.value⟩
    exact ⟨rfl, .refl e f, after, by simp [Engine.perform]⟩
  | print register =>
    obtain ⟨answer, reported, after, pending⟩ := h.print register
    rw [perform_print, perform_print, answer]
    refine ⟨rfl, reported, after, ?_⟩
    intro value printed r
    cases given : (e.print register).1 with
    | error fault =>
      rw [given] at printed
      exact absurd printed (by simp [Except.map, Except.mapError])
    | ok given' => exact pending given' given r
  | quit => exact ⟨rfl, .refl e f, h, by simp [Engine.perform]⟩
  | blank => exact ⟨rfl, .refl e f, h, by simp [Engine.perform]⟩

theorem execute (line : String) :
    (f.execute line).1 = (e.execute line).1 ∧
    ReportAlike e f (e.execute line).2 (f.execute line).2 ∧
    Alike (e.execute line).2 (f.execute line).2 ∧
    ∀ value, (e.execute line).1 = .ok (.printed value) →
      ∀ r, (f.execute line).2.store.pending r = (e.execute line).2.store.pending r := by
  unfold Engine.execute
  cases Command.parse line with
  | error cause => exact ⟨rfl, .refl e f, h, by simp⟩
  | ok c => exact h.perform c

theorem follow (lines : List String) : Alike (e.follow lines) (f.follow lines) := by
  induction lines generalizing e f with
  | nil => exact h
  | cons line lines ih =>
    rw [follow_cons, follow_cons]
    exact ih (h.execute line).2.2.1

end Alike

/-- Values that tell nothing apart. -/
instance : Accumulator Unit := ⟨fun _ => (), fun _ _ _ => ()⟩

omit [Accumulator α] in
@[simp] theorem reportAlike_map {β : Type} (g : α → β) (e f e' f' : Engine α) :
    ReportAlike (e.map g) (f.map g) (e'.map g) (f'.map g) ↔ ReportAlike e f e' f' := Iff.rfl

theorem hom_unit : Accumulator.Hom fun _ : α => () := ⟨fun _ => rfl, fun _ _ _ => rfl⟩

/-- Engines with the same text answer every line of a script in the same way, with the same new
diagnostics, whatever was pending before and whatever values the registers hold. From the same
values come the same values. -/
theorem execute_same_text {e f : Engine α} (same : f.store.text = e.store.text)
    (lines : List String) (line : String) :
    let x := (e.follow lines).execute line
    let y := (f.follow lines).execute line
    y.1.map (Outcome.map fun _ => ()) = x.1.map (Outcome.map fun _ => ()) ∧
    ReportAlike (e.follow lines) (f.follow lines) x.2 y.2 ∧
    y.2.store.text = x.2.store.text ∧
    (∀ value, x.1 = .ok (.printed value) → ∀ r, y.2.store.pending r = x.2.store.pending r) ∧
    ((∀ r, f.store.value r = e.store.value r) →
      y.1 = x.1 ∧ ∀ r, y.2.store.value r = x.2.store.value r) := by
  have blind : Alike (e.map fun _ => ()) (f.map fun _ => ()) := ⟨by simpa using same, fun _ => rfl⟩
  obtain ⟨kind, reported, after, pending⟩ := (blind.follow lines).execute line
  have commutes := translation_map (hom_unit (α := α))
  simp only [commutes.follow, commutes.execute, reportAlike_map] at kind reported after pending
  have text := after.text
  simp only [store_map, Store.text_map] at text
  dsimp only
  refine ⟨kind, reported, text, ?_, ?_⟩
  · intro value printed r
    rw [printed] at pending
    simpa only [store_map, Store.pending_map] using pending () rfl r
  · intro value
    have alike : Alike e f := ⟨same, value⟩
    obtain ⟨answer, _, after, _⟩ := (alike.follow lines).execute line
    exact ⟨answer, after.value⟩

def later : Engine Int64 := (halfway.reset.evaluate 1).2

theorem execute_same_text_later :
    later.store.text = halfway.store.text ∧ later.store.value 0 ≠ halfway.store.value 0 ∧
    later.store.pending 1 ≠ halfway.store.pending 1 ∧
    let x := (halfway.follow ["b add ghost"]).execute "print b"
    let y := (later.follow ["b add ghost"]).execute "print b"
    x.1 = .ok (.printed 64) ∧ ∀ r, y.2.store.pending r = x.2.store.pending r := by
  have same : later.store.text = halfway.store.text := by decide +kernel
  have printed : ((halfway.follow ["b add ghost"]).execute "print b").1 = .ok (.printed 64) := by
    decide +kernel
  obtain ⟨_, _, _, pending, _⟩ := execute_same_text same ["b add ghost"] "print b"
  exact ⟨same, by decide +kernel, by decide +kernel, printed, pending 64 printed⟩

end Engine

end RegisterCalculator
