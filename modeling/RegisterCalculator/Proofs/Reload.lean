import RegisterCalculator.Proofs.History
import RegisterCalculator.Proofs.Noninterference
import RegisterCalculator.Proofs.Rendering

namespace RegisterCalculator

theorem eraseDups_flatMap {β γ : Type} [DecidableEq β] {key : γ → β} {run : γ → List β}
    {xs : List γ} (apart : (xs.map key).Nodup) (some : ∀ x ∈ xs, run x ≠ [])
    (alike : ∀ x ∈ xs, ∀ b ∈ run x, b = key x) : (xs.flatMap run).eraseDups = xs.map key := by
  induction xs with
  | nil => rfl
  | cons x xs ih =>
    obtain ⟨someHere, someLater⟩ := List.forall_mem_cons.mp some
    obtain ⟨alikeHere, alikeLater⟩ := List.forall_mem_cons.mp alike
    rw [List.map_cons, List.nodup_cons] at apart
    have first : (run x).eraseDups = [key x] := by
      obtain ⟨b, rest, front⟩ := List.exists_cons_of_ne_nil someHere
      rw [front] at alikeHere ⊢
      obtain ⟨rfl, again⟩ := List.forall_mem_cons.mp alikeHere
      have none : rest.filter (fun c => !c == key x) = [] := by simpa using again
      rw [List.eraseDups_cons, none, List.eraseDups_nil]
    have others : (xs.flatMap run).removeAll (run x) = xs.flatMap run := by
      rw [List.removeAll, List.filter_eq_self]
      intro b mem
      obtain ⟨y, among, within⟩ := List.mem_flatMap.mp mem
      have other : b ∉ run x := by
        intro here
        have same : key y = key x := (alikeLater y among b within).symm.trans (alikeHere b here)
        exact apart.1 (same ▸ List.mem_map_of_mem among)
      simpa using other
    rw [List.flatMap_cons, List.eraseDups_append, first, others, ih apart.2 someLater alikeLater,
      List.map_cons, List.singleton_append]

namespace Register

variable {α : Type} {r : Register α}

/-- What has been defined for a register. -/
def definitions (r : Register α) : List (String × Instruction) :=
  r.definition.toList.map (r.name, ·)

theorem fst_of_mem_definitions {d : String × Instruction} (mem : d ∈ r.definitions) :
    d.1 = r.name := by
  obtain ⟨i, _, rfl⟩ := List.mem_map.mp mem
  rfl

theorem map_snd_filter_definitions (r : Register α) :
    (r.definitions.filter (·.1 = r.name)).map Prod.snd = r.definition.toList := by
  have all : r.definitions.filter (·.1 = r.name) = r.definitions := by
    rw [List.filter_eq_self]
    intro d mem
    simpa using fst_of_mem_definitions mem
  rw [all, definitions, List.map_map]
  exact List.map_id _

end Register

namespace Store

variable {α : Type} {given : List (String × Instruction)} {s : Store α}

def definitions (s : Store α) : List (String × Instruction) :=
  s.registers.toList.flatMap Register.definitions

/-- The lines that write the definitions of a store. -/
def dump (s : Store α) : List String :=
  s.definitions.map fun d => (Command.define d.1 d.2).render

theorem definition?_render (h : s.Speaks Text.IsLowWord (·.operand.Legible))
    {d : String × Instruction} (mem : d ∈ s.definitions) :
    Command.definition? (Command.define d.1 d.2).render = some d := by
  obtain ⟨r, among, within⟩ := List.mem_flatMap.mp mem
  obtain ⟨id, here⟩ := Array.mem_iff_getElem?.mp (Array.mem_toList_iff.mp among)
  obtain ⟨i, own, rfl⟩ := List.mem_map.mp within
  have spoke := h id r here
  have legible : (Command.define r.name i).Legible :=
    ⟨spoke.name, spoke.definition i (Array.mem_toList_iff.mp own)⟩
  rw [Command.definition?, legible.parse_render]

theorem filterMap_definition?_dump (h : s.Speaks Text.IsLowWord (·.operand.Legible)) :
    s.dump.filterMap Command.definition? = s.definitions := by
  have each : s.definitions.filterMap (fun d => Command.definition? (Command.define d.1 d.2).render) =
      s.definitions.filterMap some :=
    List.filterMap_congr fun _ mem => definition?_render h mem
  rw [dump, List.filterMap_map, Function.comp_def, each, List.filterMap_some]

theorem filter_definitions_eq_nil {rs : List (Register α)} {name : String}
    (other : name ∉ rs.map Register.name) :
    (rs.flatMap Register.definitions).filter (·.1 = name) = [] := by
  rw [List.filter_eq_nil_iff]
  intro d mem
  obtain ⟨r, among, within⟩ := List.mem_flatMap.mp mem
  have apart : d.1 ≠ name := by
    rintro rfl
    exact other (Register.fst_of_mem_definitions within ▸ List.mem_map_of_mem among)
  simpa using apart

theorem map_snd_filter_definitions {rs : List (Register α)} (apart : (rs.map Register.name).Nodup)
    {r : Register α} (mem : r ∈ rs) :
    ((rs.flatMap Register.definitions).filter (·.1 = r.name)).map Prod.snd =
      r.definition.toList := by
  obtain ⟨before, after, rfl⟩ := List.append_of_mem mem
  rw [List.map_append, List.map_cons, List.nodup_middle, List.nodup_cons, List.mem_append,
    not_or] at apart
  rw [List.flatMap_append, List.flatMap_cons, List.filter_append, List.filter_append,
    filter_definitions_eq_nil apart.1.1, filter_definitions_eq_nil apart.1.2, List.nil_append,
    List.append_nil, r.map_snd_filter_definitions]

namespace Records

theorem definitions_ne_nil (h : s.Records given) {r : Register α} (mem : r ∈ s.registers.toList) :
    r.definitions ≠ [] := by
  have known : r.name ∈ s.names := List.mem_map_of_mem mem
  rw [h.names, List.mem_eraseDups] at known
  obtain ⟨d, among, name⟩ := List.mem_map.mp known
  have counted : d ∈ given.filter (·.1 = r.name) := List.mem_filter.mpr ⟨among, by simpa using name⟩
  rw [Register.definitions, h.definition_of_mem (Array.mem_toList_iff.mp mem)]
  exact List.ne_nil_of_mem (List.mem_map_of_mem (List.mem_map_of_mem counted))

/-- In whatever order the definitions came, the store stands for them register by register too. -/
theorem records_definitions (h : s.Records given) : s.Records s.definitions := by
  constructor
  · rw [definitions, List.map_flatMap]
    symm
    apply eraseDups_flatMap (nodup_names s)
    · intro r mem
      simpa using h.definitions_ne_nil mem
    · intro r _ name within
      obtain ⟨d, own, rfl⟩ := List.mem_map.mp within
      exact Register.fst_of_mem_definitions own
  · intro id name here
    rw [getElem?_names] at here
    obtain ⟨r, stands, rfl⟩ := Option.map_eq_some_iff.mp here
    have mem : r ∈ s.registers.toList := Array.mem_toList_iff.mpr (Array.mem_of_getElem? stands)
    rw [definitions, map_snd_filter_definitions (nodup_names s) mem, Store.definition, stands,
      Option.elim_some]

/-- What was given is all there is to say about names and definitions. -/
theorem text_eq (h : s.Records given) :
    s.text.toList = (given.map Prod.fst).eraseDups.map fun name =>
      (name, ((given.filter (·.1 = name)).map Prod.snd).toArray) := by
  rw [← h.names, Store.names, text, Array.toList_map, List.map_map]
  apply List.map_congr_left
  intro r mem
  simp only [Function.comp_apply, ← h.definition_of_mem (Array.mem_toList_iff.mp mem),
    Array.toArray_toList]

end Records

end Store

namespace Engine

variable {α : Type} [Accumulator α]

theorem answers_of_definitions {lines : List String}
    (defines : ∀ line ∈ lines, (Command.definition? line).isSome) (e : Engine α) :
    (executeAll lines e).map Prod.fst = lines.map fun _ => .ok .defined := by
  induction lines generalizing e with
  | nil => rfl
  | cons line lines ih =>
    obtain ⟨here, later⟩ := List.forall_mem_cons.mp defines
    obtain ⟨d, defined⟩ := Option.isSome_iff_exists.mp here
    simp only [executeAll, List.map_cons, execute_of_definition defined, ih later]

theorem legible_follow {e : Engine α} (h : e.store.Speaks Text.IsLowWord (·.operand.Legible))
    (lines : List String) : (e.follow lines).store.Speaks Text.IsLowWord (·.operand.Legible) := by
  induction lines generalizing e with
  | nil => exact h
  | cons line lines ih =>
    rw [follow_cons]
    exact ih (speaks_execute h fun _ _ parsed => Command.legible_of_parse parsed)

/-- What the registers are defined by can be written down as lines, register by register, and read
back by a fresh engine: the same names in the same places, with the same instructions in their
definitions. -/
theorem dump_reloads (lines : List String) :
    let s := ((empty : Engine α).follow lines).store
    (executeAll s.dump (empty : Engine α)).map Prod.fst = s.dump.map (fun _ => .ok .defined) ∧
    ((empty : Engine α).follow s.dump).store.text = s.text := by
  intro s
  have legible : s.Speaks Text.IsLowWord (·.operand.Legible) :=
    legible_follow Store.speaks_empty lines
  have reading := Store.filterMap_definition?_dump legible
  constructor
  · apply answers_of_definitions
    intro line mem
    obtain ⟨d, among, rfl⟩ := List.mem_map.mp mem
    rw [Store.definition?_render legible among, Option.isSome_some]
  · have original : s.Records s.definitions := (records_follow_empty lines).records_definitions
    have again := records_follow_empty (α := α) s.dump
    rw [reading] at again
    apply Array.toList_inj.mp
    rw [again.text_eq, original.text_eq]

/-- Spelling, zeros in front and prints do not outlast a dump, but the order of registers does. -/
example : ((empty : Engine Int64).follow
    ["B  ADD 007", "print b", "A subtract b", "b multiply É"]).store.dump =
      ["b add 7", "b multiply é", "a subtract b"] := by
  decide +kernel

end Engine

end RegisterCalculator
