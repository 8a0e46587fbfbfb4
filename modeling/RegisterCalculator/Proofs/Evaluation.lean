import RegisterCalculator.Engine.Basic

namespace RegisterCalculator

/-- What a step of the machine does: it takes an instruction off the queue of a register, or the
register hands its value back because its queue is empty. -/
inductive Event (α : Type) where
  | take (register : Nat) (i : Instruction)
  | leave (register : Nat) (value : α)

def Event.register {α : Type} : Event α → Nat
  | .take register _ => register
  | .leave register _ => register

def Event.taken? {α : Type} (id : Nat) : Event α → Option Instruction
  | .take register i => if register = id then some i else none
  | .leave _ _ => none

/-- The instructions that events take off the queue of one register, in their order. -/
def taken {α : Type} (id : Nat) (events : List (Event α)) : List Instruction :=
  events.filterMap (Event.taken? id)

theorem taken_append {α : Type} (id : Nat) (events more : List (Event α)) :
    taken id (events ++ more) = taken id events ++ taken id more := List.filterMap_append

theorem mem_taken {α : Type} {id : Nat} {i : Instruction} {events : List (Event α)} :
    i ∈ taken id events ↔ .take id i ∈ events := by
  simp only [taken, List.mem_filterMap]
  constructor
  · rintro ⟨event, mem, takes⟩
    cases event with
    | take register j =>
      simp only [Event.taken?, Option.ite_none_right_eq_some, Option.some.injEq] at takes
      obtain ⟨rfl, rfl⟩ := takes
      exact mem
    | leave register value => simp [Event.taken?] at takes
  · intro mem
    exact ⟨_, mem, if_pos rfl⟩

theorem ne_of_untaken {α : Type} {id r : Nat} {i : Instruction} {events : List (Event α)}
    (untaken : ∀ j, .take r j ∉ .take id i :: events) : id ≠ r := by
  rintro rfl
  exact untaken i (List.mem_cons_self ..)

namespace Engine

variable {α : Type}

def setPending (id : Nat) (pending : List Instruction) (e : Engine α) : Engine α :=
  { e with store := e.store.setPending id pending }

def setValue (id : Nat) (value : α) (e : Engine α) : Engine α :=
  { e with store := e.store.setValue id value }

def report (id : Nat) (name : String) (e : Engine α) : Engine α :=
  { e with diagnostics := e.diagnostics.push ⟨e.store.name id, .registerNotFound name⟩ }

@[simp] theorem store_setPending (e : Engine α) (id : Nat) (pending : List Instruction) :
    (e.setPending id pending).store = e.store.setPending id pending := rfl

@[simp] theorem store_setValue (e : Engine α) (id : Nat) (value : α) :
    (e.setValue id value).store = e.store.setValue id value := rfl

@[simp] theorem store_report (e : Engine α) (id : Nat) (name : String) :
    (e.report id name).store = e.store := rfl

@[simp] theorem diagnostics_setPending (e : Engine α) (id : Nat) (pending : List Instruction) :
    (e.setPending id pending).diagnostics = e.diagnostics := rfl

@[simp] theorem diagnostics_setValue (e : Engine α) (id : Nat) (value : α) :
    (e.setValue id value).diagnostics = e.diagnostics := rfl

@[simp] theorem diagnostics_report (e : Engine α) (id : Nat) (name : String) :
    (e.report id name).diagnostics =
      e.diagnostics.push ⟨e.store.name id, .registerNotFound name⟩ := rfl

end Engine

namespace Machine

variable {α : Type} [Accumulator α]

/-- The machine that has come to an engine, with frames still to be run. -/
def of (e : Engine α) (stack : List (Frame α)) (returned : α) : Machine α :=
  ⟨e.store, e.diagnostics, stack, returned⟩

def event? (m : Machine α) : Option (Event α) :=
  match m.stack with
  | [] => none
  | frame :: _ =>
    let resumed := frame.resume m.returned m.store
    match resumed.pending frame.register with
    | [] => some (.leave frame.register (resumed.value frame.register))
    | i :: _ => some (.take frame.register i)

/-- What all the steps of a run do, in their order. -/
def trace (m : Machine α) : List (Event α) :=
  if m.stack.isEmpty then [] else m.event?.toList ++ trace m.step
termination_by m.potential
decreasing_by
  rename_i running
  exact potential_step_lt m (by simpa using running)

@[simp] theorem run_nil (e : Engine α) (returned : α) :
    (of e [] returned).run = of e [] returned := by
  rw [run, if_pos (by simp [of])]

@[simp] theorem trace_nil (e : Engine α) (returned : α) : (of e [] returned).trace = [] := by
  rw [trace, if_pos (by simp [of])]

theorem run_cons (e : Engine α) (frame : Frame α) (below : List (Frame α)) (returned : α) :
    (of e (frame :: below) returned).run = (of e (frame :: below) returned).step.run := by
  rw [run, if_neg (by simp [of])]

theorem trace_cons (e : Engine α) (frame : Frame α) (below : List (Frame α)) (returned : α) :
    (of e (frame :: below) returned).trace =
      (of e (frame :: below) returned).event?.toList ++
        (of e (frame :: below) returned).step.trace := by
  rw [trace, if_neg (by simp [of])]

@[simp] theorem pending_resume (f : Frame α) (returned : α) (s : Store α) (id : Nat) :
    (f.resume returned s).pending id = s.pending id := by
  unfold Frame.resume
  split <;> simp

@[simp] theorem pending_perform (s : Store α) (diagnostics : Array Diagnostic) (register : Nat)
    (below : List (Frame α)) (returned : α) (i : Instruction) (id : Nat) :
    (perform s diagnostics register below returned i).store.pending id = s.pending id := by
  unfold perform
  split
  · simp
  · split <;> rfl

/-- Queues change at the front only, and by nothing but the events. -/
theorem pending_step (m : Machine α) (id : Nat) :
    m.store.pending id = taken id m.event?.toList ++ m.step.store.pending id := by
  obtain ⟨store, diagnostics, stack, returned⟩ := m
  cases stack with
  | nil => rfl
  | cons frame below =>
    simp only [step, event?, pending_resume]
    cases waits : store.pending frame.register with
    | nil => simp [taken, Event.taken?]
    | cons i rest =>
      have here := Store.lt_size_of_pending
        ((pending_resume frame returned store frame.register).trans waits)
      simp only [pending_perform, Store.pending_setPending _ _ _ _ here, pending_resume]
      by_cases same : frame.register = id
      · simp [taken, Event.taken?, ← same, waits]
      · simp [taken, Event.taken?, same]

theorem pending_run (m : Machine α) (id : Nat) :
    m.store.pending id = taken id m.trace ++ m.run.store.pending id := by
  induction m using run.induct with
  | case1 m done => rw [run, trace, if_pos done, if_pos done]; rfl
  | case2 m running ih =>
    rw [run, trace, if_neg running, if_neg running, taken_append, List.append_assoc, ← ih,
      ← pending_step]

section Step

variable {e : Engine α} {id : Nat} {op : Operation} {rest : List Instruction}
  {below : List (Frame α)} {returned : α}

theorem event?_drained (empty : e.store.pending id = []) :
    (of e (.enter id :: below) returned).event? = some (.leave id (e.store.value id)) := by
  simp [event?, of, Frame.enter, Frame.resume, empty]

theorem event?_waits {i : Instruction} (waits : e.store.pending id = i :: rest) :
    (of e (.enter id :: below) returned).event? = some (.take id i) := by
  simp [event?, of, Frame.enter, Frame.resume, waits]

theorem step_drained (empty : e.store.pending id = []) :
    (of e (.enter id :: below) returned).step = of e below (e.store.value id) := by
  simp [step, of, Frame.enter, Frame.resume, empty]

theorem step_literal {x : Int64} (waits : e.store.pending id = ⟨op, .literal x⟩ :: rest) :
    (of e (.enter id :: below) returned).step =
      of ((e.setPending id rest).setValue id
        (Accumulator.apply op (e.store.value id) (Accumulator.ofLiteral x)))
        (.enter id :: below) returned := by
  simp [step, of, Frame.enter, Frame.resume, waits, perform, Engine.setPending, Engine.setValue]

theorem step_missing {name : String} (waits : e.store.pending id = ⟨op, .register name⟩ :: rest)
    (absent : e.store.find? name = none) :
    (of e (.enter id :: below) returned).step =
      of ((e.setPending id rest).report id name) (.enter id :: below) returned := by
  simp [step, of, Frame.enter, Frame.resume, waits, perform, absent, Engine.setPending,
    Engine.report]

theorem step_entered {name : String} {operand : Nat}
    (waits : e.store.pending id = ⟨op, .register name⟩ :: rest)
    (found : e.store.find? name = some operand) :
    (of e (.enter id :: below) returned).step =
      of (e.setPending id rest) (.enter operand :: ⟨id, some (op, e.store.value id)⟩ :: below)
        returned := by
  simp [step, of, Frame.enter, Frame.resume, waits, perform, found, Engine.setPending]

/-- A frame that waits goes on as if it were entered after the value it waits for has been folded
in. -/
theorem run_resumed (lhs : α) :
    (of e (⟨id, some (op, lhs)⟩ :: below) returned).run =
      (of (e.setValue id (Accumulator.apply op lhs returned)) (.enter id :: below)
        returned).run := by
  rw [run_cons, run_cons]
  rfl

theorem trace_resumed (lhs : α) :
    (of e (⟨id, some (op, lhs)⟩ :: below) returned).trace =
      (of (e.setValue id (Accumulator.apply op lhs returned)) (.enter id :: below)
        returned).trace := by
  rw [trace_cons, trace_cons]
  rfl

end Step

end Machine

/-- One visit of a register as a tree of visits: from an engine, through events, to the value that
the register hands back and the engine it leaves. -/
inductive Evaluates {α : Type} [Accumulator α] :
    Nat → Engine α → List (Event α) → α → Engine α → Prop where
  | drained {id e} (empty : e.store.pending id = []) :
    Evaluates id e [.leave id (e.store.value id)] (e.store.value id) e
  | literal {id e op x rest events value e'}
    (waits : e.store.pending id = ⟨op, .literal x⟩ :: rest)
    (more : Evaluates id ((e.setPending id rest).setValue id
      (Accumulator.apply op (e.store.value id) (Accumulator.ofLiteral x))) events value e') :
    Evaluates id e (.take id ⟨op, .literal x⟩ :: events) value e'
  | missing {id e op name rest events value e'}
    (waits : e.store.pending id = ⟨op, .register name⟩ :: rest)
    (absent : e.store.find? name = none)
    (more : Evaluates id ((e.setPending id rest).report id name) events value e') :
    Evaluates id e (.take id ⟨op, .register name⟩ :: events) value e'
  | entered {id e op name rest operand inner x between events value e'}
    (waits : e.store.pending id = ⟨op, .register name⟩ :: rest)
    (found : e.store.find? name = some operand)
    (enters : Evaluates operand (e.setPending id rest) inner x between)
    (more : Evaluates id (between.setValue id (Accumulator.apply op (e.store.value id) x))
      events value e') :
    Evaluates id e (.take id ⟨op, .register name⟩ :: (inner ++ events)) value e'

namespace Evaluates

open Machine

variable {α : Type} [Accumulator α]

/-- The machine works off a visit above any frames, and comes back to them with its value. -/
theorem run_enter {id : Nat} {e e' : Engine α} {events : List (Event α)} {value : α}
    (h : Evaluates id e events value e') (below : List (Frame α)) (returned : α) :
    (of e (.enter id :: below) returned).run = (of e' below value).run ∧
    (of e (.enter id :: below) returned).trace = events ++ (of e' below value).trace := by
  induction h generalizing below returned with
  | drained empty =>
    rw [run_cons, trace_cons, event?_drained empty, step_drained empty]
    exact ⟨rfl, rfl⟩
  | literal waits _ ih =>
    rw [run_cons, trace_cons, event?_waits waits, step_literal waits]
    exact ⟨(ih below returned).1, congrArg _ (ih below returned).2⟩
  | missing waits absent _ ih =>
    rw [run_cons, trace_cons, event?_waits waits, step_missing waits absent]
    exact ⟨(ih below returned).1, congrArg _ (ih below returned).2⟩
  | @entered id e op name _ operand inner x between events value e' waits found _ _ ihEnters ihMore =>
    rw [run_cons, trace_cons, event?_waits waits, step_entered waits found]
    have enters := ihEnters (⟨id, some (op, e.store.value id)⟩ :: below) returned
    have more := ihMore below x
    rw [enters.1, enters.2, run_resumed, trace_resumed, more.1, more.2]
    simp

end Evaluates

end RegisterCalculator
