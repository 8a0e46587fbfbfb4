import Mathlib.Data.List.Basic
import RegisterCalculator.Proofs.Recording

namespace RegisterCalculator

/-- The entries of a list whose places are kept. -/
def kept {β : Type} (keep : Nat → Bool) (l : List β) : List β :=
  (l.zipIdx.filter (keep ·.2)).map Prod.fst

theorem kept_cons {β : Type} (keep : Nat → Bool) (x : β) (l : List β) :
    kept keep (x :: l) =
      if keep 0 then x :: kept (fun place => keep (place + 1)) l
      else kept (fun place => keep (place + 1)) l := by
  have rest : kept (fun place => keep (place + 1)) l =
      ((l.zipIdx 1).filter (keep ·.2)).map Prod.fst := by
    rw [List.zipIdx_succ, List.filter_map, List.map_map]
    rfl
  rw [rest, kept, List.zipIdx_cons, List.filter_cons]
  split <;> rfl

namespace Engine

variable {α : Type} [Accumulator α]

inductive Idle : Except LineError (Outcome α) → Prop where
  | refused (cause : LineError) : Idle (.error cause)
  | skipped : Idle (.ok .skipped)
  | quit : Idle (.ok .quit)

/-- What lines bring, one after the other: the answer to each and the diagnostics it records. -/
def responses : List String → Engine α →
    List (Except LineError (Outcome α) × List Diagnostic)
  | [], _ => []
  | line :: rest, e => ((e.execute line).1, e.recorded line) :: responses rest (e.execute line).2

theorem execute_idle (line : String) (e : Engine α) (idle : Idle (e.execute line).1) :
    (e.execute line).2 = e := by
  cases e.execution line with
  | malformed _ _ outcome => rw [outcome]
  | missing _ _ _ outcome => rw [outcome]
  | quit _ outcome => rw [outcome]
  | blank _ outcome => rw [outcome]
  | defined _ _ _ outcome =>
    rw [outcome] at idle
    nomatch idle
  | printed _ _ _ _ outcome =>
    rw [outcome] at idle
    nomatch idle

/-- A line that comes to nothing leaves the engine as it is, in all its parts. So the other lines of
a script bring the same answers, the same diagnostics and the same registers in the end without any
such lines among them. -/
theorem omit_idle :
    (∀ (e : Engine α) (line : String), Idle (e.execute line).1 → (e.execute line).2 = e) ∧
    ∀ (e : Engine α) (lines : List String) (keep : Nat → Bool),
      (∀ place answer reported, (responses lines e)[place]? = some (answer, reported) →
        keep place = false → Idle answer) →
      responses (kept keep lines) e = kept keep (responses lines e) ∧
      e.follow (kept keep lines) = e.follow lines := by
  refine ⟨fun e line => execute_idle line e, ?_⟩
  intro e lines keep
  induction lines generalizing e keep with
  | nil => exact fun _ => ⟨rfl, rfl⟩
  | cons line rest ih =>
    intro idle
    have later := ih (e.execute line).2 (fun place => keep (place + 1)) fun place => idle (place + 1)
    rw [responses, kept_cons, kept_cons, follow_cons]
    cases first : keep 0 with
    | true =>
      simp only [if_true, responses, follow_cons]
      exact ⟨congrArg _ later.1, later.2⟩
    | false =>
      have same : (e.execute line).2 = e := execute_idle line e (idle 0 _ _ rfl first)
      rw [same] at later ⊢
      simpa using later

def littered : List String := ["a add 2", "print b", "a add ghost", "", "a divide 3", "print a"]

theorem omit_idle_littered :
    let keep (place : Nat) : Bool := place == 0 || place == 2 || place == 5
    (∀ place answer reported,
      (responses littered (empty : Engine Int64))[place]? = some (answer, reported) →
      keep place = false → Idle answer) ∧
    kept keep littered = ["a add 2", "a add ghost", "print a"] ∧
    responses ["a add 2", "a add ghost", "print a"] (empty : Engine Int64) =
      kept keep (responses littered empty) := by
  intro keep
  have all : responses littered (empty : Engine Int64) =
      [ (.ok .defined, []), (.error (.fault (.registerNotFound "b")), []), (.ok .defined, []),
        (.ok .skipped, []),
        (.error (.malformed (.unknownOperation ⟨"divide".toList, ⟨2, 8⟩⟩)), []),
        (.ok (.printed 2), [⟨"a", .registerNotFound "ghost"⟩]) ] := by
    decide +kernel
  have idle : ∀ place answer reported,
      (responses littered (empty : Engine Int64))[place]? = some (answer, reported) →
      keep place = false → Idle answer := by
    intro place answer reported found dropped
    rw [all] at found
    match place with
    | 0 | 2 | 5 => simp [keep] at dropped
    | 1 | 4 =>
      obtain ⟨rfl, _⟩ := Prod.mk.inj (Option.some.inj found)
      exact .refused _
    | 3 =>
      obtain ⟨rfl, _⟩ := Prod.mk.inj (Option.some.inj found)
      exact .skipped
    | place + 6 => simp at found
  have rest : kept keep littered = ["a add 2", "a add ghost", "print a"] := by decide
  have same := (omit_idle.2 empty littered keep idle).1
  rw [rest] at same
  exact ⟨idle, rest, same⟩

end Engine

end RegisterCalculator
