import Mathlib.Data.List.Induction
import Mathlib.Data.List.Nodup
import RegisterCalculator.Proofs.Reach
import RegisterCalculator.Proofs.Termination

namespace RegisterCalculator

theorem eraseDups_concat {β : Type} [DecidableEq β] (l : List β) (x : β) :
    (l ++ [x]).eraseDups = if x ∈ l then l.eraseDups else l.eraseDups ++ [x] := by
  rw [List.eraseDups_append, List.removeAll]
  by_cases known : x ∈ l <;> simp [known, List.eraseDups_cons]

/-- What can be asked of a store: the place of a name, new or old, the place of an old name, and the
changes that callers make. -/
inductive Access where
  | ensure (name : String)
  | find (name : String)
  | append (id : Nat) (i : Instruction)
  | reset (id : Nat)
  | resetAll
  deriving DecidableEq

def Access.ensured? : Access → Option String
  | .ensure name => some name
  | _ => none

namespace Store

variable {α : Type}

/-- The names of the registers, in the order of their places. -/
def names (s : Store α) : List String := s.registers.toList.map Register.name

theorem getElem?_names (s : Store α) (id : Nat) :
    s.names[id]? = s.registers[id]?.map Register.name := by
  simp [names]

theorem length_names (s : Store α) : s.names.length = s.size := by
  simp [names, size]

theorem find_eq_ok_iff {s : Store α} {name : String} {id : Nat} :
    s.find name = .ok id ↔ s.find? name = some id := by
  unfold find
  split
  · next found => simp [found]
  · next absent => simp [absent]

theorem find?_eq_some_iff_names {s : Store α} {name : String} {id : Nat} :
    s.find? name = some id ↔ s.names[id]? = some name := by
  rw [find?_eq_some_iff, getElem?_names]

theorem find?_eq_none_iff {s : Store α} {name : String} : s.find? name = none ↔ name ∉ s.names := by
  rw [List.mem_iff_getElem?, Option.eq_none_iff_forall_ne_some]
  simp only [ne_eq, find?_eq_some_iff_names, not_exists]

theorem nodup_names (s : Store α) : s.names.Nodup := by
  rw [List.nodup_iff_getElem?_ne_getElem?]
  intro i j before inside same
  have here := find?_eq_some_iff_names.mpr (List.getElem?_eq_getElem inside)
  have there := find?_eq_some_iff_names.mpr (same.trans (List.getElem?_eq_getElem inside))
  exact Nat.ne_of_lt before (Option.some.inj (there.symm.trans here))

theorem names_modify (s : Store α) (id : Nat) (f : Register α → Register α)
    (keeps : ∀ r, (f r).name = r.name) : (s.modify id f keeps).names = s.names := by
  have same := congrArg Array.toList (map_modify s id f keeps Register.name keeps)
  simpa only [names, Array.toList_map] using same

theorem names_append (s : Store α) (id : Nat) (i : Instruction) :
    (s.append id i).names = s.names := names_modify s id (·.append i) fun _ => rfl

theorem names_reset (s : Store α) (id : Nat) : (s.reset id).names = s.names :=
  names_modify s id Register.reset fun _ => rfl

theorem names_resetAll (s : Store α) : s.resetAll.names = s.names := by
  simp [names, resetAll, Register.reset, Function.comp_def]

variable [Accumulator α]

theorem names_ensure (s : Store α) (name : String) :
    (s.ensure name).2.names = if name ∈ s.names then s.names else s.names ++ [name] := by
  unfold ensure
  split
  · next id found =>
    have known : name ∈ s.names := List.mem_of_getElem? (find?_eq_some_iff_names.mp found)
    rw [if_pos known]
  · next free =>
    rw [if_neg (find?_eq_none_iff.mp free)]
    simp [names, push, Register.new]

theorem ensure_of_find?_eq_none {s : Store α} {name : String} (free : s.find? name = none) :
    (s.ensure name).1 = s.size ∧ (s.ensure name).2.size = s.size + 1 := by
  unfold ensure
  split
  · next id found =>
    cases free.symm.trans found
  · exact ⟨rfl, by simp [size, push]⟩

/-- The store that an access leaves. -/
def access (s : Store α) : Access → Store α
  | .ensure name => (s.ensure name).2
  | .find _ => s
  | .append id i => s.append id i
  | .reset id => s.reset id
  | .resetAll => s.resetAll

def accessAll (s : Store α) (accesses : List Access) : Store α := accesses.foldl access s

theorem accessAll_append (s : Store α) (first last : List Access) :
    s.accessAll (first ++ last) = (s.accessAll first).accessAll last := List.foldl_append

/-- Names are added behind the others. No access takes one away, or moves one. -/
theorem names_access (s : Store α) (a : Access) :
    (s.access a).names = a.ensured?.elim s.names fun name =>
      if name ∈ s.names then s.names else s.names ++ [name] := by
  cases a with
  | ensure name => exact names_ensure s name
  | find name => rfl
  | append id i => exact names_append s id i
  | reset id => exact names_reset s id
  | resetAll => exact names_resetAll s

theorem names_prefix_access (s : Store α) (a : Access) : s.names <+: (s.access a).names := by
  rw [names_access]
  cases a.ensured? with
  | none => exact List.prefix_rfl
  | some name =>
    simp only [Option.elim_some]
    split
    · exact List.prefix_rfl
    · exact List.prefix_append ..

theorem names_prefix_accessAll (s : Store α) (accesses : List Access) :
    s.names <+: (s.accessAll accesses).names := by
  induction accesses generalizing s with
  | nil => exact List.prefix_rfl
  | cons a accesses ih => exact (names_prefix_access s a).trans (ih (s.access a))

/-- From the empty store, the names are those that have been asked for, in the order in which each
was first. -/
theorem names_accessAll (accesses : List Access) :
    ((empty : Store α).accessAll accesses).names =
      (accesses.filterMap Access.ensured?).eraseDups := by
  induction accesses using List.reverseRecOn with
  | nil => rfl
  | append_singleton accesses a ih =>
    rw [accessAll_append, List.filterMap_append]
    change (access _ a).names = _
    rw [names_access, ih]
    cases asked : a.ensured? with
    | none => simp [asked]
    | some name => simp [asked, eraseDups_concat, List.mem_eraseDups]

theorem find?_accessAll {s : Store α} {name : String} {id : Nat} (found : s.find? name = some id)
    (accesses : List Access) : (s.accessAll accesses).find? name = some id := by
  rw [find?_eq_some_iff_names] at found ⊢
  obtain ⟨more, same⟩ := names_prefix_accessAll s accesses
  obtain ⟨inside, _⟩ := List.getElem?_eq_some_iff.mp found
  rw [← same, List.getElem?_append_left inside, found]

theorem mem_names_accessAll {accesses : List Access} {name : String} :
    name ∈ ((empty : Store α).accessAll accesses).names ↔ .ensure name ∈ accesses := by
  rw [names_accessAll, List.mem_eraseDups, List.mem_filterMap]
  constructor
  · rintro ⟨a, mem, asks⟩
    cases a with
    | ensure asked =>
      cases asks
      exact mem
    | find _ => nomatch asks
    | append _ _ => nomatch asks
    | reset _ => nomatch asks
    | resetAll => nomatch asks
  · exact fun mem => ⟨_, mem, rfl⟩

theorem find?_accessAll_ensure (before after : List Access) (name : String) :
    ((empty : Store α).accessAll (before ++ .ensure name :: after)).find? name =
      some (((empty : Store α).accessAll before).ensure name).1 := by
  rw [accessAll_append]
  exact find?_accessAll (find?_ensure _ name) after

theorem find?_accessAll_iff {accesses : List Access} {name : String} {id : Nat} :
    ((empty : Store α).accessAll accesses).find? name = some id ↔
      ∃ before after, accesses = before ++ .ensure name :: after ∧ .ensure name ∉ before ∧
        (((empty : Store α).accessAll before).ensure name).1 = id := by
  constructor
  · intro found
    have known := List.mem_of_getElem? (find?_eq_some_iff_names.mp found)
    obtain ⟨before, after, split, first⟩ :=
      List.eq_append_cons_of_mem (mem_names_accessAll.mp known)
    refine ⟨before, after, split, first, ?_⟩
    rw [split, find?_accessAll_ensure] at found
    exact Option.some.inj found
  · rintro ⟨before, after, rfl, _, rfl⟩
    exact find?_accessAll_ensure before after name

/-- Index and registers stay in step, whatever has been asked of a store that was empty. A name is
found exactly if a place has been asked for under it, where the first such call put it, and a place
that was ever found keeps its register and its name. -/
theorem places_kept (accesses : List Access) :
    let s := (empty : Store α).accessAll accesses
    (∀ name id, s.index[name]? = some id ↔ id < s.size ∧ s.name id = name) ∧
    s.names.Nodup ∧ s.names = (accesses.filterMap Access.ensured?).eraseDups ∧
    (∀ name id, s.find name = .ok id ↔
      ∃ before after, accesses = before ++ .ensure name :: after ∧ .ensure name ∉ before ∧
        (((empty : Store α).accessAll before).ensure name).1 = id) ∧
    (∀ name, let (id, t) := s.ensure name
      t.find name = .ok id ∧ (.ensure name ∉ accesses → id = s.size ∧ t.size = id + 1)) ∧
    (∀ name id more, s.find name = .ok id →
      let t := s.accessAll more
      t.find name = .ok id ∧ id < t.size ∧ t.name id = name ∧
      ∀ diagnostics n, (Machine.step^[n] (Machine.start t diagnostics id)).Inside) ∧
    ∀ before name after, accesses = before ++ .find name :: after →
      s = (empty : Store α).accessAll (before ++ after) := by
  intro s
  simp only [find_eq_ok_iff]
  have place : ∀ (t : Store α) name id,
      t.find? name = some id ↔ id < t.size ∧ t.name id = name := by
    intro t name id
    rw [find?_eq_some_iff, Store.name, Store.size]
    by_cases here : id < t.registers.size <;> simp [here]
  refine ⟨place s, nodup_names s, names_accessAll accesses, fun _ _ => find?_accessAll_iff,
    ?_, ?_, ?_⟩
  · intro name
    refine ⟨find?_ensure s name, ?_⟩
    intro new
    have free : s.find? name = none := find?_eq_none_iff.mpr (mt mem_names_accessAll.mp new)
    obtain ⟨next, size⟩ := ensure_of_find?_eq_none free
    exact ⟨next, by rw [size, next]⟩
  · intro name id more found
    have kept := find?_accessAll found more
    obtain ⟨inside, owner⟩ := (place _ name id).mp kept
    refine ⟨kept, inside, owner, fun diagnostics n => Machine.inside_iterate ?_ n⟩
    simpa [Machine.Inside, Machine.start, Frame.enter] using inside
  · rintro before name after rfl
    simp only [s, accessAll, List.foldl_append, List.foldl_cons, access]

theorem places_kept_again :
    let accesses : List Access :=
      [.ensure "a", .find "b", .ensure "b", .append 0 ⟨.add, .register "b"⟩, .resetAll]
    let more : List Access := [.ensure "c", .reset 1, .ensure "b", .find "d"]
    let s := (empty : Store Int64).accessAll accesses
    s.find "b" = .ok 1 ∧ (s.accessAll more).find "b" = .ok 1 ∧ (s.accessAll more).size = 3 ∧
    ∀ diagnostics n, (Machine.step^[n] (Machine.start (s.accessAll more) diagnostics 1)).Inside := by
  intro accesses more s
  have found : s.find "b" = .ok 1 := by decide +kernel
  obtain ⟨_, _, _, _, _, kept, _⟩ := places_kept (α := Int64) accesses
  obtain ⟨again, _, _, inside⟩ := kept "b" 1 more found
  exact ⟨found, again, by decide +kernel, inside⟩

end Store

end RegisterCalculator
